import Playhead.Proofs.State.Atomic

/-!
What becomes of one service when a map is put into the set, whether the map is taken in or refused.

Built-in services come before those of the host, so that a record under the name of one is its own
even if the host has registered a service under the same name.
-/

namespace Playhead

/-- A built-in service all of whose state is one record. -/
def ServiceKey.IsWhole : ServiceKey → Prop
  | .textLog | .choices | .callStack | .played => True
  | _ => False

namespace ServiceSet

variable {s t u : ServiceSet} {scope : StateScope} {key : ServiceKey} {j : Json}

theorem ne_host_of_isWhole (hkey : key.IsWhole) (i : Nat) : key ≠ .host i := by
  rintro rfl
  exact hkey

/-- The name of a built-in service is the same in all sets. -/
theorem idOf_of_isWhole (hkey : key.IsWhole) (s t : ServiceSet) : s.idOf key = t.idOf key := by
  cases key with
  | host i => exact hkey.elim
  | _ => rfl

/-- The names of built-in services are distinct, and none comes after a service of the host. -/
theorem keys_pairwise (s : ServiceSet) :
    s.keys.Pairwise fun a b => (∀ i, b ≠ .host i) → s.idOf a ≠ s.idOf b := by
  have hpick : ∀ (b : Bool) (k : ServiceKey), (if b then [k] else []).Sublist [k] := by
    intro b k
    cases b with
    | true => exact .refl _
    | false => exact List.nil_sublist _
  have hbuiltin : ([.variableStore, .textLog, .choices, .callStack, .played, .preferences] :
      List ServiceKey).Pairwise fun a b => (∀ i, b ≠ .host i) → s.idOf a ≠ s.idOf b := by
    simp [idOf]
  unfold keys
  refine List.pairwise_append.2 ⟨hbuiltin.sublist ?_, ?_, fun a _ b hb hne => ?_⟩
  · exact (((((hpick _ _).append (hpick _ _)).append (hpick _ _)).append (hpick _ _)).append
      (hpick _ _)).append (hpick _ _)
  · exact List.pairwise_map.2 (List.pairwise_of_forall fun _ i hne => absurd rfl (hne i))
  · obtain ⟨i, -, rfl⟩ := List.mem_map.1 hb
    exact absurd rfl (hne i)

/-- A service whose state is one record is told by it. -/
theorem agreesAt_of_record (hkey : key.IsWhole) (hj : s.record? scope key = some j)
    (h : t.restore? scope key j = some u) : u.AgreesAt s key := by
  have hpart := (of_restore (fun _ _ => ()) (ne_host_of_isWhole hkey) hj h).2.2
  cases key with
  | textLog => exact Option.map_injective (fun _ _ => Part.textLog.inj) hpart
  | choices => exact Option.map_injective (fun _ _ => Part.choices.inj) hpart
  | callStack => exact Option.map_injective (fun _ _ => Part.callStack.inj) hpart
  | played => exact Option.map_injective (fun _ _ => Part.played.inj) hpart
  | _ => exact hkey.elim

theorem refuse_of_isWhole (hkey : key.IsWhole) (s : ServiceSet) (scope : StateScope) (j : Json) :
    s.refuse scope key j = s := by
  cases key with
  | host i => exact hkey.elim
  | _ => rfl

end ServiceSet

namespace StateMap

open ServiceSet

variable {s t u : ServiceSet} {scope : StateScope} {key : ServiceKey} {m : StateMap}
  {keys : List ServiceKey}

theorem get?_of_collectKeys_pairwise (h : collectKeys s scope keys = .ok m)
    (hkeys : keys.Pairwise fun a b => (∀ i, b ≠ .host i) → s.idOf a ≠ s.idOf b)
    (hmem : key ∈ keys) (hbuiltin : ∀ i, key ≠ .host i) :
    ∃ j, s.record? scope key = some j ∧ m.get? (s.idOf key) = some j := by
  induction keys generalizing m with
  | nil => cases hmem
  | cons k rest ih =>
    obtain ⟨j, hj, h⟩ := exists_of_bind_ok h
    obtain ⟨n, hrest, h⟩ := exists_of_bind_ok h
    cases h
    obtain ⟨hk, hkeys⟩ := List.pairwise_cons.1 hkeys
    by_cases heq : key = k
    · subst heq
      exact ⟨j, record_eq_ok.1 hj, by rw [NameMap.get?_insert, if_pos rfl]⟩
    · have hmem := (List.mem_cons.1 hmem).resolve_left heq
      obtain ⟨i, hi, hget⟩ := ih hrest hkeys hmem
      exact ⟨i, hi, by rw [NameMap.get?_insert, if_neg (hk key hmem hbuiltin), hget]⟩

/-- The record of a built-in service is found under its name. -/
theorem get?_of_collect (h : collect s scope = .ok m) (hmem : key ∈ s.inScope scope)
    (hbuiltin : ∀ i, key ≠ .host i) :
    ∃ j, s.record? scope key = some j ∧ m.get? (s.idOf key) = some j :=
  get?_of_collectKeys_pairwise h (s.keys_pairwise.sublist List.filter_sublist) hmem hbuiltin

/-- Services that take in records one after the other: one of them is as it was, or as its record
was made. -/
theorem agreesAt_applyKeys (hkey : key.IsWhole)
    (hget : ∃ j, t.record? scope key = some j ∧ m.get? (t.idOf key) = some j)
    (hu : u.AgreesAt s key ∨ u.AgreesAt t key) :
    (applyKeys m scope u keys).1.AgreesAt s key ∨ (applyKeys m scope u keys).1.AgreesAt t key := by
  induction keys generalizing u with
  | nil => exact hu
  | cons k rest ih =>
    have hother : ∀ {v : ServiceSet}, v.AgreesAt u key → v.AgreesAt s key ∨ v.AgreesAt t key :=
      fun hv => hu.imp hv.trans hv.trans
    unfold applyKeys
    by_cases heq : key = k
    · subst heq
      obtain ⟨j, hj, hget⟩ := hget
      rw [idOf_of_isWhole hkey u t, hget]
      unfold restore
      dsimp only
      cases hr : u.restore? scope key j with
      | none =>
        show (u.refuse scope key j).AgreesAt s key ∨ (u.refuse scope key j).AgreesAt t key
        rw [refuse_of_isWhole hkey]
        exact hu
      | some v => exact ih (.inr (agreesAt_of_record hkey hj hr))
    · split
      · exact ih (hother (agreesAt_reset u scope heq))
      · rename_i j hj
        unfold restore
        cases hr : u.restore? scope k j with
        | none => exact hother (agreesAt_refuse u scope j heq)
        | some v => exact ih (hother (agreesAt_restore hr heq))

/-- A service of another scope is left alone. -/
theorem agreesAt_apply_of_not_mem (m : StateMap) (hkey : key ∉ s.inScope scope) :
    (m.apply scope s).1.AgreesAt s key := by
  unfold apply
  cases collect s scope with
  | error e => exact .refl s key
  | ok backup =>
    have hcomes := applyKeys_comes m (fun _ h => h) (Comes.here : Comes scope s s)
    dsimp only
    generalize applyKeys m scope s (s.inScope scope) = r at hcomes ⊢
    obtain ⟨u, _ | e⟩ := r
    · exact hcomes.agreesAt hkey
    · have hinScope : u.inScope scope = s.inScope scope := by
        rw [← inScope_shape, hcomes.shape_eq, inScope_shape]
      exact (applyKeys_comes backup (fun _ h => hinScope ▸ h) hcomes).agreesAt hkey

/-- When records that were collected of services are put into others, a service is as it was or as
it was when they were collected, even if they are refused. -/
theorem agreesAt_apply (hkey : key.IsWhole) (ht : key ∈ t.inScope scope)
    (hm : collect t scope = .ok m) :
    (m.apply scope s).1.AgreesAt s key ∨ (m.apply scope s).1.AgreesAt t key := by
  by_cases hs : key ∈ s.inScope scope
  · have hbuiltin := ne_host_of_isWhole hkey
    have hget := get?_of_collect hm ht hbuiltin
    unfold apply
    cases hc : collect s scope with
    | error e => exact .inl (.refl s key)
    | ok backup =>
      have happly : (applyKeys m scope s (s.inScope scope)).1.AgreesAt s key ∨
          (applyKeys m scope s (s.inScope scope)).1.AgreesAt t key :=
        agreesAt_applyKeys hkey hget (.inl (.refl s key))
      dsimp only
      generalize applyKeys m scope s (s.inScope scope) = r at happly ⊢
      obtain ⟨u, _ | e⟩ := r
      · exact happly
      · exact (agreesAt_applyKeys hkey (get?_of_collect hc hs hbuiltin) happly.symm).symm
  · exact .inl (agreesAt_apply_of_not_mem m hs)

/-- Once it was reset, a service is as it was or in its first state. -/
theorem agreesAt_reset_game (hkey : key.IsWhole) (s : ServiceSet) :
    (reset .game s).AgreesAt s key ∨ (reset .game s).AgreesAt (s.reset .game key) key := by
  have hfirst : ∀ u : ServiceSet, u.AgreesAt s key ∨ u.AgreesAt (s.reset .game key) key →
      (u.reset .game key).AgreesAt (s.reset .game key) key := by
    rintro u (hu | hu)
    · exact hu.reset .game
    · refine AgreesAt.trans (hu.reset .game) ?_
      cases key with
      | textLog | choices | callStack | played =>
        show Option.map _ (Option.map _ _) = Option.map _ _
        rw [Option.map_map]
        rfl
      | _ => exact hkey.elim
  have hfold : ∀ (l : List ServiceKey) (u : ServiceSet),
      u.AgreesAt s key ∨ u.AgreesAt (s.reset .game key) key →
      (l.foldl (fun u k => u.reset .game k) u).AgreesAt s key ∨
        (l.foldl (fun u k => u.reset .game k) u).AgreesAt (s.reset .game key) key := by
    intro l
    induction l with
    | nil => exact fun u hu => hu
    | cons k rest ih =>
      intro u hu
      refine ih _ ?_
      by_cases heq : key = k
      · subst heq
        exact .inr (hfirst u hu)
      · exact hu.imp (agreesAt_reset u .game heq).trans (agreesAt_reset u .game heq).trans
  exact hfold _ s (.inl (.refl s key))

end StateMap

end Playhead
