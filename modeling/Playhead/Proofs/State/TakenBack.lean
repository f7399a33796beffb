import Playhead.Proofs.Services.Shape
import Playhead.Proofs.State.Records

/-!
The built-in services take back the records that they hand out, in whatever state they are by then.

The one exception is a number that has no text in JSON: it is written as `null`, and a record with
such a value is refused.
-/

namespace Playhead

namespace ServiceSet

/-- Positions and times are words of 64 bits. -/
structure InWords (s : ServiceSet) : Prop where
  calls : ∀ k, s.callStack = some k → ∀ f ∈ k.frames, f.index < Decimal.twoTo 64
  played : ∀ p, s.played = some p → ∀ e ∈ p.scripts.entries, ∀ n ∈ e.2.items,
    n < Decimal.twoTo 64
  delay : ∀ p, s.preferences = some p → p.current.autoPlayDelay < Decimal.twoTo 64

/-- Every number that a service holds of a scope is finite. -/
def HoldsFinite (s : ServiceSet) (scope : StateScope) (key : ServiceKey) : Prop :=
  key = .variableStore →
    ∀ v, s.variableStore = some v → ∀ e ∈ (v.within scope).entries, e.2.IsFinite

variable {α : Type} {s t u : ServiceSet}
  {scope : StateScope} {key : ServiceKey} {j : Json}

theorem exists_record (scope : StateScope) (hbuiltin : ∀ i, key ≠ .host i) (hkey : key ∈ s.keys) :
    ∃ j, s.record? scope key = some j := by
  refine Option.isSome_iff_exists.1 ?_
  cases key with
  | host i => exact absurd rfl (hbuiltin i)
  | _ => simpa [record?, keys] using hkey

/-- A record is taken in by any service of its kind, if all its numbers can be read back. -/
theorem exists_restore (hbuiltin : ∀ i, key ≠ .host i) (hkey : key ∈ t.keys) (hs : s.InWords)
    (hfinite : s.HoldsFinite scope key) (hj : s.record? scope key = some j) :
    ∃ u, t.restore? scope key j = some u := by
  cases key with
  | variableStore =>
    obtain ⟨v, hv, rfl⟩ := Option.map_eq_some_iff.1 hj
    obtain ⟨w, hw⟩ := Option.isSome_iff_exists.1 (show t.variableStore.isSome by
      simpa [keys] using hkey)
    have hread := Value.mapOfJson?_mapToJson (hfinite rfl v hv)
    refine ⟨_, Option.bind_eq_some_iff.2 ⟨w, hw, Option.bind_eq_some_iff.2 ⟨_, hread, rfl⟩⟩⟩
  | textLog =>
    obtain ⟨l, -, rfl⟩ := Option.map_eq_some_iff.1 hj
    exact ⟨_, Option.map_eq_some_iff.2 ⟨l, TextLog.ofJson?_toJson l, rfl⟩⟩
  | choices =>
    obtain ⟨k, -, rfl⟩ := Option.map_eq_some_iff.1 hj
    exact ⟨_, Option.map_eq_some_iff.2 ⟨k, Choices.ofJson?_toJson k, rfl⟩⟩
  | callStack =>
    obtain ⟨k, hk, rfl⟩ := Option.map_eq_some_iff.1 hj
    exact ⟨_, Option.map_eq_some_iff.2 ⟨k, CallStack.ofJson?_toJson (hs.calls k hk), rfl⟩⟩
  | played =>
    obtain ⟨p, hp, rfl⟩ := Option.map_eq_some_iff.1 hj
    exact ⟨_, Option.map_eq_some_iff.2 ⟨p, Played.ofJson?_toJson (hs.played p hp), rfl⟩⟩
  | preferences =>
    obtain ⟨p, hp, rfl⟩ := Option.map_eq_some_iff.1 hj
    obtain ⟨q, hq⟩ := Option.isSome_iff_exists.1 (show t.preferences.isSome by
      simpa [keys] using hkey)
    exact ⟨_, Option.bind_eq_some_iff.2 ⟨q, hq, Option.bind_eq_some_iff.2
      ⟨_, Prefs.ofJson?_toJson (hs.delay p hp), rfl⟩⟩⟩
  | host i => exact absurd rfl (hbuiltin i)

/-- A record that is taken in gives what it was made of. -/
theorem of_restore (view : HostService → StateScope → α) (hbuiltin : ∀ i, key ≠ .host i)
    (hj : s.record? scope key = some j) (h : t.restore? scope key j = some u) :
    s.HoldsFinite scope key ∧ u.record? scope key = some j ∧
      u.part? view scope key = s.part? view scope key := by
  cases key with
  | variableStore =>
    obtain ⟨v, hv, rfl⟩ := Option.map_eq_some_iff.1 hj
    obtain ⟨w, hw, h⟩ := Option.bind_eq_some_iff.1 h
    obtain ⟨m, hm, h⟩ := Option.bind_eq_some_iff.1 h
    cases h
    have hfinite : ∀ e ∈ (v.within scope).entries, e.2.IsFinite :=
      Value.finite_of_mapOfJson? hm
    cases Value.eq_of_mapOfJson? hm
    refine ⟨fun _ v' hv' => ?_, ?_, ?_⟩
    · rw [hv] at hv'
      cases hv'
      exact hfinite
    · show some (Value.mapToJson _) = _
      split <;> rfl
    · show some (Part.variables _) = s.variableStore.map fun v => .variables (v.within scope)
      rw [hv]
      unfold VariableStore.within
      split <;> rfl
  | textLog =>
    obtain ⟨l, hl, rfl⟩ := Option.map_eq_some_iff.1 hj
    obtain ⟨l', hl', rfl⟩ := Option.map_eq_some_iff.1 h
    cases (TextLog.ofJson?_toJson l).symm.trans hl'
    exact ⟨nofun, rfl, congrArg (Option.map _) hl.symm⟩
  | choices =>
    obtain ⟨k, hk, rfl⟩ := Option.map_eq_some_iff.1 hj
    obtain ⟨k', hk', rfl⟩ := Option.map_eq_some_iff.1 h
    cases (Choices.ofJson?_toJson k).symm.trans hk'
    exact ⟨nofun, rfl, congrArg (Option.map _) hk.symm⟩
  | callStack =>
    obtain ⟨k, hk, rfl⟩ := Option.map_eq_some_iff.1 hj
    obtain ⟨k', hk', rfl⟩ := Option.map_eq_some_iff.1 h
    cases CallStack.eq_of_ofJson? hk'
    exact ⟨nofun, rfl, congrArg (Option.map _) hk.symm⟩
  | played =>
    obtain ⟨p, hp, rfl⟩ := Option.map_eq_some_iff.1 hj
    obtain ⟨p', hp', rfl⟩ := Option.map_eq_some_iff.1 h
    cases Played.eq_of_ofJson? hp'
    exact ⟨nofun, rfl, congrArg (Option.map _) hp.symm⟩
  | preferences =>
    obtain ⟨p, hp, rfl⟩ := Option.map_eq_some_iff.1 hj
    obtain ⟨q, hq, h⟩ := Option.bind_eq_some_iff.1 h
    obtain ⟨current, hc, h⟩ := Option.bind_eq_some_iff.1 h
    cases Prefs.eq_of_ofJson? hc
    cases h
    refine ⟨nofun, rfl, ?_⟩
    show some (Part.prefs p.current) = s.preferences.map fun p => .prefs p.current
    rw [hp]
    rfl
  | host i => exact absurd rfl (hbuiltin i)

/-- Every built-in service hands out a record of each of its scopes. The services of the same kind
take it in, whatever they hold, exactly if its numbers are finite, and then hold of the scope what
the record was made of, and all else as before. -/
theorem record_takenBack (view : HostService → StateScope → α) (hs : s.InWords)
    (hbuiltin : ∀ i, key ≠ .host i) (hscope : scope ∈ s.scopesOf key) (hkey : key ∈ s.keys) (hkey' : key ∈ t.keys) :
    ∃ j, s.record scope key = .ok j ∧
      ((∃ u, t.restore scope key j = .ok u) ↔ s.HoldsFinite scope key) ∧
      ∀ u, t.restore scope key j = .ok u →
        u.record scope key = .ok j ∧ u.part? view scope key = s.part? view scope key ∧
          (∀ key' ≠ key, u.AgreesAt t key') ∧
          ∀ scope' ∈ s.scopesOf key, scope' ≠ scope →
            u.part? view scope' key = t.part? view scope' key := by
  obtain ⟨j, hj⟩ := exists_record scope hbuiltin hkey
  refine ⟨j, record_eq_ok.2 hj, ⟨?_, fun hfinite => ?_⟩, fun u hu => ?_⟩
  · rintro ⟨u, hu⟩
    exact (of_restore view hbuiltin hj (restore_eq_ok.1 hu)).1
  · obtain ⟨u, hu⟩ := exists_restore hbuiltin hkey' hs hfinite hj
    exact ⟨u, restore_eq_ok.2 hu⟩
  · obtain ⟨-, hrecord, hpart⟩ := of_restore view hbuiltin hj (restore_eq_ok.1 hu)
    refine ⟨record_eq_ok.2 hrecord, hpart, fun key' hne => agreesAt_restore (restore_eq_ok.1 hu) hne, ?_⟩
    exact fun scope' hscope' hne => part?_restore_apart hbuiltin hscope hscope' hne (restore_eq_ok.1 hu)

/-- Services that were told a command, which those of a new game take back. -/
theorem record_takenBack_played : ∃ (s t : ServiceSet) (j : Json),
    s = { ServiceSet.builtin default with played := some (Played.empty.mark "tale" 3) } ∧
      t = ServiceSet.builtin default ∧ s.record .global .played = .ok j ∧
        ∃ u, t.restore .global .played j = .ok u ∧ u.played = s.played := by
  obtain ⟨s, hs⟩ : ∃ s, s = { ServiceSet.builtin default with
    played := some (Played.empty.mark "tale" 3) } := ⟨_, rfl⟩
  have hwords : s.InWords := by
    subst hs
    refine ⟨fun k hk f hf => ?_, fun p hp e he n hn => ?_, fun p hp => ?_⟩
    · cases hk
      cases hf
    · cases hp
      have hall : ((Played.empty.mark "tale" 3).scripts.entries.all fun e =>
          e.2.items.all (· < Decimal.twoTo 64)) = true := by decide
      exact of_decide_eq_true (List.all_eq_true.1 (List.all_eq_true.1 hall e he) n hn)
    · cases hp
      decide
  have hscope : .global ∈ s.scopesOf .played := by
    subst hs
    decide
  have hkey : .played ∈ s.keys := by
    subst hs
    decide
  have hbuiltin : ∀ i, ServiceKey.played ≠ .host i := nofun
  obtain ⟨j, hj, hiff, hall⟩ := record_takenBack (t := .builtin default) (fun _ _ => ()) hwords
    hbuiltin hscope hkey (by decide)
  obtain ⟨u, hu⟩ := hiff.2 nofun
  obtain ⟨-, hpart, -⟩ := hall u hu
  refine ⟨s, _, j, hs, rfl, hj, u, hu, ?_⟩
  have hinj : Function.Injective (Part.played : Played → Part Unit) := fun p q h => by
    cases h
    rfl
  exact Option.map_injective hinj hpart

end ServiceSet

end Playhead
