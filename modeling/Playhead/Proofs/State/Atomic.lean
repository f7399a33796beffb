import Playhead.Extension.Counter
import Playhead.Proofs.State.Restore
import Playhead.Proofs.State.TakenBack

/-!
A map of records is put into the services of a scope as a whole or not at all.

What carries the proof is that the services take back their own records in every state that they
come to on the way: the records collected before are put back in whichever of the services refused
its record, and whatever was put into those before it.
-/

namespace Playhead

namespace HostService

/-- A service of the host that takes back its own record of a scope in any state, and keeps what it
holds of its other scopes when it takes in a record, refuses one or is reset. -/
structure Recovers {α : Type} (view : HostService → StateScope → α) (scope : StateScope)
    (h : HostService) : Prop where
  back : ∀ state j, h.record? h.state scope = some j → ∃ state',
    h.restore? state scope j = some state' ∧
      view { h with state := state' } scope = view h scope
  apart : ∀ state state' j, h.restore? state scope j = some state' ∨
      state' = h.refused state scope j ∨ state' = h.reset state scope →
    ∀ scope' ∈ h.scopes, scope' ≠ scope →
      view { h with state := state' } scope' = view { h with state := state } scope'

theorem eq_with_of_blank {h k : HostService} (he : h.blank = k.blank) :
    h = { k with state := h.state } := by
  cases h
  cases k
  cases he
  rfl

end HostService

namespace ServiceSet

/-- One service takes in a record of a scope, refuses one or is reset. -/
inductive Touches (scope : StateScope) (key : ServiceKey) : ServiceSet → ServiceSet → Prop where
  | takeIn {s u : ServiceSet} {j : Json} (h : s.restore? scope key j = some u) :
    Touches scope key s u
  | refuse {s : ServiceSet} (j : Json) (h : s.restore? scope key j = none) :
    Touches scope key s (s.refuse scope key j)
  | reset {s : ServiceSet} : Touches scope key s (s.reset scope key)

/-- What the services of a scope come to. -/
inductive Comes (scope : StateScope) (s : ServiceSet) : ServiceSet → Prop where
  | here : Comes scope s s
  | touch {t u : ServiceSet} {key : ServiceKey} (h : Comes scope s t)
    (hkey : key ∈ s.inScope scope) (ht : Touches scope key t u) : Comes scope s u

/-- The services of a scope take back their own records, in whatever state they are by then, and no
record and no reset of the scope touches another one. -/
structure Recoverable {α : Type} (view : HostService → StateScope → α) (scope : StateScope)
    (s : ServiceSet) : Prop where
  back : ∀ {t key j}, Comes scope s t → key ∈ s.inScope scope → s.record? scope key = some j →
    ∃ u, t.restore? scope key j = some u ∧ u.part? view scope key = s.part? view scope key
  apart : ∀ {t u key scope'}, Comes scope s t → key ∈ s.inScope scope → Touches scope key t u →
    scope' ∈ s.scopesOf key → scope' ≠ scope →
      u.part? view scope' key = t.part? view scope' key

/-- A service of the host is told by what it holds of its scopes. -/
def ToldBy {α : Type} (view : HostService → StateScope → α) (s : ServiceSet) : Prop :=
  ∀ h ∈ s.host, ∀ k : HostService, k.blank = h.blank →
    (∀ scope ∈ h.scopes, view k scope = view h scope) → k = h

variable {α : Type} {view : HostService → StateScope → α} {s t u : ServiceSet}
  {scope scope' : StateScope} {key key' : ServiceKey} {j : Json}

theorem mem_inScope_iff : key ∈ s.inScope scope ↔ key ∈ s.keys ∧ scope ∈ s.scopesOf key := by
  unfold inScope
  rw [List.mem_filter, List.contains_iff_mem]

theorem Touches.agreesAt (h : Touches scope key s u) (hne : key' ≠ key) : u.AgreesAt s key' := by
  cases h with
  | takeIn h => exact agreesAt_restore h hne
  | refuse j => exact agreesAt_refuse s scope j hne
  | reset => exact agreesAt_reset s scope hne

theorem Touches.shape_eq (hkey : key ∈ s.keys) (h : Touches scope key s u) :
    u.shape = s.shape := by
  cases h with
  | takeIn h => exact shape_of_restore hkey h
  | refuse j => exact shape_refuse s scope key j
  | reset => exact shape_reset s scope key

/-- What the preferences fall back to is of no scope. -/
theorem Touches.defaults_eq (h : Touches scope key s u) :
    u.preferences.map Preferences.defaults = s.preferences.map Preferences.defaults := by
  by_cases hkey : key = .preferences
  · subst hkey
    cases h with
    | takeIn h =>
      obtain ⟨p, hp, h⟩ := Option.bind_eq_some_iff.1 h
      obtain ⟨current, -, h⟩ := Option.bind_eq_some_iff.1 h
      cases h
      rw [hp]
      rfl
    | refuse => rfl
    | reset =>
      unfold ServiceSet.reset
      dsimp only
      rw [Option.map_map]
      rfl
  · have hagrees : u.AgreesAt s .preferences := h.agreesAt (Ne.symm hkey)
    have hsame : u.preferences = s.preferences := hagrees
    rw [hsame]

theorem Comes.shape_eq (h : Comes scope s t) : t.shape = s.shape := by
  induction h with
  | here => rfl
  | touch h hkey ht ih =>
    refine (ht.shape_eq ?_).trans ih
    rw [← keys_shape, ih, keys_shape]
    exact (mem_inScope_iff.1 hkey).1

theorem Comes.defaults_eq (h : Comes scope s t) :
    t.preferences.map Preferences.defaults = s.preferences.map Preferences.defaults := by
  induction h with
  | here => rfl
  | touch h hkey ht ih => exact ht.defaults_eq.trans ih

/-- The services that are not of the scope stay as they are. -/
theorem Comes.agreesAt (h : Comes scope s t) (hkey : key ∉ s.inScope scope) :
    t.AgreesAt s key := by
  induction h with
  | here => exact .refl s key
  | touch h hkey' ht ih =>
    refine (ht.agreesAt ?_).trans ih
    rintro rfl
    exact hkey hkey'

/-- What the services hold of another scope stays. -/
theorem Comes.apart (h : Comes scope s t) (hs : s.Recoverable view scope)
    (hkey : key ∈ s.inScope scope') (hne : scope' ≠ scope) :
    t.part? view scope' key = s.part? view scope' key := by
  induction h with
  | here => rfl
  | @touch t u key₀ h hkey₀ ht ih =>
    by_cases hk : key = key₀
    · subst hk
      exact (hs.apart h hkey₀ ht (mem_inScope_iff.1 hkey).2 hne).trans ih
    · exact ((ht.agreesAt hk).part?_eq scope').trans ih

/-- A service takes in a record as it does in another set, where it is the same. -/
theorem AgreesAt.exists_restore (h : s.AgreesAt t key) (hu : s.restore? scope key j = some u) :
    ∃ v, t.restore? scope key j = some v ∧ u.AgreesAt v key := by
  cases key with
  | variableStore | preferences =>
    obtain ⟨old, hold, hu⟩ := Option.bind_eq_some_iff.1 hu
    obtain ⟨new, hnew, hu⟩ := Option.bind_eq_some_iff.1 hu
    cases hu
    exact ⟨_, Option.bind_eq_some_iff.2 ⟨old, Eq.trans (Eq.symm h) hold,
      Option.bind_eq_some_iff.2 ⟨new, hnew, rfl⟩⟩, rfl⟩
  | textLog | choices | callStack | played =>
    obtain ⟨new, hnew, hu⟩ := Option.map_eq_some_iff.1 hu
    cases hu
    exact ⟨_, Option.map_eq_some_iff.2 ⟨new, hnew, rfl⟩, rfl⟩
  | host i =>
    obtain ⟨k, hk, hu⟩ := Option.bind_eq_some_iff.1 hu
    obtain ⟨state, hstate, hu⟩ := Option.bind_eq_some_iff.1 hu
    cases hu
    have hk' : t.host[i]? = some k := Eq.trans (Eq.symm h) hk
    refine ⟨_, Option.bind_eq_some_iff.2 ⟨k, hk', Option.bind_eq_some_iff.2 ⟨state, hstate, rfl⟩⟩,
      ?_⟩
    have hset : ∀ {v : ServiceSet} {k' : HostService}, v.host[i]? = some k →
        (v.setHost i k').host[i]? = some k' := fun hv =>
      List.getElem?_set_self (List.getElem?_eq_some_iff.1 hv).1
    exact (hset hk).trans (hset hk').symm

theorem AgreesAt.reset (h : s.AgreesAt t key) (scope : StateScope) :
    (s.reset scope key).AgreesAt (t.reset scope key) key := by
  cases key with
  | host i =>
    have h : s.host[i]? = t.host[i]? := h
    show ((s.reset scope (.host i)).host)[i]? = ((t.reset scope (.host i)).host)[i]?
    unfold ServiceSet.reset
    dsimp only
    rw [h]
    cases hk : t.host[i]? with
    | none => exact h
    | some k =>
      have hset : ∀ {v : ServiceSet} {k' : HostService}, v.host[i]? = some k →
          (v.setHost i k').host[i]? = some k' := fun hv =>
        List.getElem?_set_self (List.getElem?_eq_some_iff.1 hv).1
      exact (hset (h.trans hk)).trans (hset hk).symm
  | _ => exact congrArg (Option.map _) h

theorem part?_setHost {i : Nat} {k k' : HostService} (hk : s.host[i]? = some k) :
    (s.setHost i k').part? view scope (.host i) = some (.host (view k' scope)) := by
  have hnew : (s.setHost i k').host[i]? = some k' :=
    List.getElem?_set_self (List.getElem?_eq_some_iff.1 hk).1
  unfold part?
  dsimp only
  rw [hnew]
  rfl

/-- What becomes of a service of the host that takes in a record, refuses one or is reset. -/
theorem Touches.host {i : Nat} {k : HostService} (hk : t.host[i]? = some k)
    (h : Touches scope (.host i) t u) : ∃ state j, u = t.setHost i { k with state := state } ∧
      (k.restore? k.state scope j = some state ∨ state = k.refused k.state scope j ∨
        state = k.reset k.state scope) := by
  cases h with
  | takeIn h =>
    rename_i j
    obtain ⟨k', hk', h⟩ := Option.bind_eq_some_iff.1 h
    cases hk.symm.trans hk'
    obtain ⟨state, hstate, h⟩ := Option.bind_eq_some_iff.1 h
    cases h
    exact ⟨state, j, rfl, .inl hstate⟩
  | refuse j h =>
    refine ⟨_, j, ?_, .inr (.inl rfl)⟩
    unfold ServiceSet.refuse
    simp only [hk]
  | reset =>
    refine ⟨_, .null, ?_, .inr (.inr rfl)⟩
    unfold ServiceSet.reset
    simp only [hk]

theorem host_back {i : Nat} (hshape : t.shape = s.shape)
    (hhost : ∀ h ∈ s.host, h.Recovers view scope) (hj : s.record? scope (.host i) = some j) :
    ∃ u, t.restore? scope (.host i) j = some u ∧
      u.part? view scope (.host i) = s.part? view scope (.host i) := by
  obtain ⟨k, hk, hj⟩ := Option.bind_eq_some_iff.1 hj
  obtain ⟨k', hk', hblank⟩ := host_of_shape hshape.symm hk
  have heq := HostService.eq_with_of_blank hblank.symm
  obtain ⟨state, hstate, hview⟩ := (hhost k (List.mem_of_getElem? hk)).back k'.state j hj
  have hrestore : k'.restore? k'.state scope j = some state := by
    rw [heq]
    exact hstate
  refine ⟨_, Option.bind_eq_some_iff.2 ⟨k', hk', Option.bind_eq_some_iff.2
    ⟨state, hrestore, rfl⟩⟩, ?_⟩
  rw [part?_setHost hk', heq]
  show some (Part.host (view { k with state := state } scope)) =
    s.host[i]?.map fun h => .host (view h scope)
  rw [hk, hview]
  rfl

theorem host_apart {i : Nat} (hshape : t.shape = s.shape)
    (hhost : ∀ h ∈ s.host, h.Recovers view scope) (htouch : Touches scope (.host i) t u)
    (hscope : scope' ∈ s.scopesOf (.host i)) (hne : scope' ≠ scope) :
    u.part? view scope' (.host i) = t.part? view scope' (.host i) := by
  obtain ⟨k, hk, hmem⟩ : ∃ k, s.host[i]? = some k ∧ scope' ∈ k.scopes := by
    cases hk : s.host[i]? with
    | none => simp [scopesOf, hk] at hscope
    | some k => exact ⟨k, rfl, by simpa [scopesOf, hk] using hscope⟩
  obtain ⟨k', hk', hblank⟩ := host_of_shape hshape.symm hk
  have heq := HostService.eq_with_of_blank hblank.symm
  have hown : t.part? view scope' (.host i) = some (.host (view k' scope')) := by
    unfold part?
    dsimp only
    rw [hk']
    rfl
  obtain ⟨state, j, rfl, h⟩ := htouch.host hk'
  have hrestore : k'.restore? = k.restore? := by rw [heq]
  have hrefused : k'.refused = k.refused := by rw [heq]
  have hreset : k'.reset = k.reset := by rw [heq]
  rw [hrestore, hrefused, hreset] at h
  rw [part?_setHost hk', hown, heq]
  exact congrArg (some <| Part.host ·)
    ((hhost k (List.mem_of_getElem? hk)).apart k'.state state j h scope' hmem hne)

/-- The built-in services take back their records if all numbers are finite. -/
theorem recoverable (hwords : s.InWords) (hfinite : s.HoldsFinite scope .variableStore)
    (hhost : ∀ h ∈ s.host, h.Recovers view scope) : s.Recoverable view scope where
  back {t key j} ht hkey hj := by
    by_cases hbuiltin : ∀ i, key ≠ .host i
    · have hkey' : key ∈ t.keys := by
        rw [← keys_shape, ht.shape_eq, keys_shape]
        exact (mem_inScope_iff.1 hkey).1
      obtain ⟨u, hu⟩ := exists_restore hbuiltin hkey' hwords (fun _ => hfinite rfl) hj
      exact ⟨u, hu, (of_restore view hbuiltin hj hu).2.2⟩
    · obtain ⟨i, hi⟩ := not_forall.1 hbuiltin
      cases not_not.1 hi
      exact host_back ht.shape_eq hhost hj
  apart {t u key scope'} ht hkey htouch hscope' hne := by
    have hscope := (mem_inScope_iff.1 hkey).2
    by_cases hbuiltin : ∀ i, key ≠ .host i
    · cases htouch with
      | takeIn h => exact part?_restore_apart hbuiltin hscope hscope' hne h
      | refuse =>
        cases key with
        | host i => exact absurd rfl (hbuiltin i)
        | _ => rfl
      | reset => exact part?_reset_apart hbuiltin hscope hscope' hne
    · obtain ⟨i, hi⟩ := not_forall.1 hbuiltin
      cases not_not.1 hi
      exact host_apart ht.shape_eq hhost htouch hscope' hne

/-- Services that hold the same of each of their scopes are the same. -/
theorem eq_of_part? (htold : s.ToldBy view) (hshape : t.shape = s.shape)
    (hdefaults : t.preferences.map Preferences.defaults = s.preferences.map Preferences.defaults)
    (h : ∀ key, ∀ scope ∈ s.scopesOf key, t.part? view scope key = s.part? view scope key) :
    t = s := by
  refine eq_of_agreesAt fun key => ?_
  cases key with
  | variableStore =>
    have hgame := h .variableStore .game (by simp [scopesOf])
    have hglobal := h .variableStore .global (by simp [scopesOf])
    show t.variableStore = s.variableStore
    cases ht : t.variableStore <;> cases hs : s.variableStore <;>
      simp_all [part?, VariableStore.within]
    rename_i v w
    cases v
    cases w
    simp_all
  | textLog =>
    have hpart := h .textLog .game (by simp [scopesOf])
    exact Option.map_injective (fun _ _ => Part.textLog.inj) hpart
  | choices =>
    have hpart := h .choices .game (by simp [scopesOf])
    exact Option.map_injective (fun _ _ => Part.choices.inj) hpart
  | callStack =>
    have hpart := h .callStack .game (by simp [scopesOf])
    exact Option.map_injective (fun _ _ => Part.callStack.inj) hpart
  | played =>
    have hpart := h .played .global (by simp [scopesOf])
    exact Option.map_injective (fun _ _ => Part.played.inj) hpart
  | preferences =>
    have hpart := h .preferences .settings (by simp [scopesOf])
    show t.preferences = s.preferences
    cases ht : t.preferences <;> cases hs : s.preferences <;> simp_all [part?]
    rename_i p q
    cases p
    cases q
    simp_all
  | host i =>
    show t.host[i]? = s.host[i]?
    cases hk : t.host[i]? with
    | none =>
      have hlength : s.host.length = t.host.length := by
        have hmap := congrArg (fun v : ServiceSet => v.host.length) hshape
        simpa [shape] using hmap.symm
      exact (List.getElem?_eq_none (hlength ▸ List.getElem?_eq_none_iff.1 hk)).symm
    | some k =>
      obtain ⟨k', hk', hblank⟩ := host_of_shape hshape hk
      have hview : ∀ scope ∈ k'.scopes, view k scope = view k' scope := by
        intro scope hscope
        have hpart := h (.host i) scope (by simpa [scopesOf, hk'] using hscope)
        simpa [part?, hk, hk'] using hpart
      rw [hk', htold k' (List.mem_of_getElem? hk') k hblank hview]

end ServiceSet

namespace StateMap

open ServiceSet

variable {α : Type} {view : HostService → StateScope → α} {s t u : ServiceSet}
  {scope : StateScope} {m : StateMap} {keys : List ServiceKey}

/-- A service is in the state in which its record from the map left it, or its default if the map
has none. -/
def Holds (m : StateMap) (scope : StateScope) (s t : ServiceSet) (key : ServiceKey) : Prop :=
  match m.get? (s.idOf key) with
  | some j => ∃ u, s.restore? scope key j = some u ∧ t.AgreesAt u key
  | none => t.AgreesAt (s.reset scope key) key

theorem applyKeys_comes (m : StateMap) (hkeys : ∀ key ∈ keys, key ∈ s.inScope scope)
    (ht : Comes scope s t) : Comes scope s (applyKeys m scope t keys).1 := by
  induction keys generalizing t with
  | nil => exact ht
  | cons key rest ih =>
    have hkey := hkeys key List.mem_cons_self
    have ih := fun {t} => @ih t fun k hk => hkeys k (List.mem_cons_of_mem _ hk)
    unfold applyKeys
    split
    · exact ih (ht.touch hkey .reset)
    · rename_i j hj
      unfold restore
      cases hr : t.restore? scope key j with
      | none => exact ht.touch hkey (.refuse j hr)
      | some u => exact ih (ht.touch hkey (.takeIn hr))

/-- What became of a service is the same seen from any state of the others. -/
theorem Holds.before {t' : ServiceSet} (h : m.Holds scope t' u key) (hid : t'.idOf = t.idOf)
    (hsame : t'.AgreesAt t key) : m.Holds scope t u key := by
  unfold Holds at h ⊢
  rw [hid] at h
  cases hget : m.get? (t.idOf key) with
  | none =>
    rw [hget] at h
    exact AgreesAt.trans h (hsame.reset scope)
  | some j =>
    rw [hget] at h
    obtain ⟨v, hv, hu⟩ := h
    obtain ⟨w, hw, hvw⟩ := hsame.exists_restore hv
    exact ⟨w, hw, hu.trans hvw⟩

/-- Each service is touched once, in the state in which the whole began. -/
theorem holds_of_applyKeys (hn : keys.Nodup) (hid : t.idOf = s.idOf)
    (hkeys : ∀ key ∈ keys, key ∈ s.inScope scope) (ht : Comes scope s t)
    (h : applyKeys m scope t keys = (u, none)) :
    (∀ key ∈ keys, m.Holds scope t u key) ∧ ∀ key, key ∉ keys → u.AgreesAt t key := by
  induction keys generalizing t with
  | nil =>
    cases h
    exact ⟨fun _ hk => (List.not_mem_nil hk).elim, fun key _ => .refl u key⟩
  | cons key rest ih =>
    obtain ⟨hnot, hn⟩ := List.nodup_cons.1 hn
    have hkey := hkeys key List.mem_cons_self
    -- What comes of the first service and of the others, once it was touched.
    have hstep : ∀ {t'}, Touches scope key t t' → applyKeys m scope t' rest = (u, none) →
        u.AgreesAt t' key ∧ (∀ k ∈ rest, m.Holds scope t u k) ∧
          ∀ k, k ∉ key :: rest → u.AgreesAt t k := by
      intro t' htouch h
      have hcomes := ht.touch hkey htouch
      have hid' : t'.idOf = s.idOf := by
        rw [← idOf_shape, hcomes.shape_eq, idOf_shape]
      obtain ⟨hheld, hkept⟩ := ih hn hid' (fun k hk => hkeys k (List.mem_cons_of_mem _ hk))
        hcomes h
      refine ⟨hkept key hnot, fun k hk => ?_, fun k hk => ?_⟩
      · have hne : k ≠ key := fun heq => hnot (heq ▸ hk)
        exact (hheld k hk).before (hid'.trans hid.symm) (htouch.agreesAt hne)
      · obtain ⟨hk, hrest⟩ := not_or.1 (mt List.mem_cons.2 hk)
        exact (hkept k hrest).trans (htouch.agreesAt hk)
    have hall : m.Holds scope t u key ∧ (∀ k ∈ rest, m.Holds scope t u k) ∧
        ∀ k, k ∉ key :: rest → u.AgreesAt t k := by
      unfold applyKeys at h
      cases hget : m.get? (t.idOf key) with
      | none =>
        rw [hget] at h
        obtain ⟨hfirst, hrest⟩ := hstep .reset h
        refine ⟨?_, hrest⟩
        unfold Holds
        rw [hget]
        exact hfirst
      | some j =>
        rw [hget] at h
        unfold restore at h
        cases hr : t.restore? scope key j with
        | none =>
          simp only [hr] at h
          cases h
        | some t' =>
          simp only [hr] at h
          obtain ⟨hfirst, hrest⟩ := hstep (.takeIn hr) h
          refine ⟨?_, hrest⟩
          unfold Holds
          rw [hget]
          exact ⟨t', hr, hfirst⟩
    exact ⟨List.forall_mem_cons.2 ⟨hall.1, hall.2.1⟩, hall.2.2⟩

/-- The records collected before are all put back. -/
theorem part?_of_applyKeys (hs : s.Recoverable view scope) (hn : keys.Nodup)
    (hkeys : ∀ key ∈ keys, key ∈ s.inScope scope ∧
      ∃ j, s.record? scope key = some j ∧ m.get? (s.idOf key) = some j)
    (ht : Comes scope s t) :
    ∃ u, applyKeys m scope t keys = (u, none) ∧ Comes scope s u ∧
      (∀ key ∈ keys, u.part? view scope key = s.part? view scope key) ∧
        ∀ key, key ∉ keys → u.AgreesAt t key := by
  induction keys generalizing t with
  | nil => exact ⟨t, rfl, ht, fun _ hk => (List.not_mem_nil hk).elim, fun key _ => .refl t key⟩
  | cons key rest ih =>
    obtain ⟨hnot, hn⟩ := List.nodup_cons.1 hn
    obtain ⟨hkey, j, hj, hget⟩ := hkeys key List.mem_cons_self
    obtain ⟨t', hr, hpart⟩ := hs.back ht hkey hj
    obtain ⟨u, hu, hcomes, hback, hkept⟩ := ih hn
      (fun k hk => hkeys k (List.mem_cons_of_mem _ hk)) (ht.touch hkey (.takeIn hr))
    have hid : t.idOf = s.idOf := by
      rw [← idOf_shape, ht.shape_eq, idOf_shape]
    refine ⟨u, ?_, hcomes, fun k hk => ?_, fun k hk => ?_⟩
    · unfold applyKeys restore
      rw [hid, hget]
      simp only [hr]
      exact hu
    · rcases List.mem_cons.1 hk with rfl | hk
      · exact ((hkept k hnot).part?_eq scope).trans hpart
      · exact hback k hk
    · obtain ⟨hk, hrest⟩ := not_or.1 (mt List.mem_cons.2 hk)
      exact (hkept k hrest).trans (agreesAt_restore hr hk)

/-- The records collected before are put back from wherever a refusal left the services. -/
theorem exists_putBack (hn : s.ids.Nodup) (hs : s.Recoverable view scope) {backup : StateMap}
    (hc : collect s scope = .ok backup) (ht : Comes scope s t) :
    ∃ v, applyKeys backup scope t (t.inScope scope) = (v, none) ∧ Comes scope s v ∧
      (∀ scope', ∀ key ∈ s.inScope scope', v.part? view scope' key = s.part? view scope' key) ∧
        (s.ToldBy view → v = s) := by
  have hids : ((s.inScope scope).map s.idOf).Nodup := hn.sublist (List.filter_sublist.map _)
  have hinScope : t.inScope scope = s.inScope scope := by
    rw [← inScope_shape, ht.shape_eq, inScope_shape]
  obtain ⟨v, hv, hback, hpart, -⟩ := part?_of_applyKeys hs (.of_map _ hids)
    (fun key hkey => ⟨hkey, get?_of_collectKeys hc hids key hkey⟩) ht
  have hsame : ∀ scope', ∀ key ∈ s.inScope scope',
      v.part? view scope' key = s.part? view scope' key := by
    intro scope' key hkey
    by_cases heq : scope' = scope
    · subst heq
      exact hpart key hkey
    · exact hback.apart hs hkey heq
  refine ⟨v, hinScope ▸ hv, hback, hsame, fun htold => ?_⟩
  refine eq_of_part? htold hback.shape_eq hback.defaults_eq fun key scope' hscope' => ?_
  by_cases hkey : key ∈ s.keys
  · exact hsame scope' key (mem_inScope_iff.2 ⟨hkey, hscope'⟩)
  · exact (hback.agreesAt fun hin => hkey (mem_inScope_iff.1 hin).1).part?_eq scope'

/-- Either a map is put into every service of a scope, or all services are as they were. What they
hold of other scopes stays in either case. -/
theorem apply_atomic (hn : s.ids.Nodup) (hs : s.Recoverable view scope)
    {r : Except ServiceError Unit} (h : m.apply scope s = (t, r)) :
    ((r = .ok () ∧ ∀ key ∈ s.inScope scope, m.Holds scope s t key) ∨
      ((∃ e, r = .error e) ∧
        (∀ scope', ∀ key ∈ s.inScope scope', t.part? view scope' key = s.part? view scope' key) ∧
          (s.ToldBy view → t = s))) ∧
      (∀ scope', scope' ≠ scope → ∀ key ∈ s.inScope scope',
        t.part? view scope' key = s.part? view scope' key) ∧
      ∀ key, key ∉ s.inScope scope → t.AgreesAt s key := by
  have hids : ((s.inScope scope).map s.idOf).Nodup := hn.sublist (List.filter_sublist.map _)
  have hkeys : (s.inScope scope).Nodup := .of_map _ hids
  have hapart : ∀ {t : ServiceSet}, Comes scope s t → (∀ scope', scope' ≠ scope →
      ∀ key ∈ s.inScope scope', t.part? view scope' key = s.part? view scope' key) ∧
      ∀ key, key ∉ s.inScope scope → t.AgreesAt s key := fun ht =>
    ⟨fun _ hne _ hkey => ht.apart hs hkey hne, fun _ hkey => ht.agreesAt hkey⟩
  unfold apply at h
  cases hc : collect s scope with
  | error e =>
    rw [hc] at h
    cases h
    exact ⟨.inr ⟨⟨e, rfl⟩, fun _ _ _ => rfl, fun _ => rfl⟩, hapart .here⟩
  | ok backup =>
    rw [hc] at h
    have hcomes := applyKeys_comes m (fun _ hkey => hkey) (Comes.here : Comes scope s s)
    cases ha : applyKeys m scope s (s.inScope scope) with
    | mk u err =>
      rw [ha] at hcomes h
      cases err with
      | none =>
        cases h
        exact ⟨.inl ⟨rfl, (holds_of_applyKeys hkeys rfl (fun _ hkey => hkey) .here ha).1⟩,
          hapart hcomes⟩
      | some e =>
        obtain ⟨v, hv, hback, hsame, heq⟩ := exists_putBack hn hs hc hcomes
        dsimp only at h hv
        rw [hv] at h
        cases h
        exact ⟨.inr ⟨⟨e, rfl⟩, hsame, heq⟩, hapart hback⟩

/-- A log and a counter, with a map that has no record of the one and none for the other to take
in. -/
theorem apply_atomic_counter : ∃ (s : ServiceSet) (m : StateMap),
    s = { ServiceSet.builtin default with
      textLog := some ⟨[⟨none, "a line"⟩]⟩
      host := [{ Counter.service "counter" with state := .int 3 }] } ∧
      m.get? "text-log" = none ∧ m.get? "counter" = some (.text "three") ∧
        m.apply .game s = (s, .error (.record "counter")) := by
  obtain ⟨s, hs⟩ : ∃ s, s = { ServiceSet.builtin default with
    textLog := some ⟨[⟨none, "a line"⟩]⟩
    host := [{ Counter.service "counter" with state := .int 3 }] } := ⟨_, rfl⟩
  obtain ⟨m, hm⟩ : ∃ m : StateMap, m = .ofList [("counter", .text "three")] := ⟨_, rfl⟩
  have hn : s.ids.Nodup := by
    subst hs
    decide
  have hwords : s.InWords := by
    subst hs
    refine ⟨fun k hk f hf => ?_, fun p hp e he n hn => ?_, fun p hp => ?_⟩
    · cases hk
      cases hf
    · cases hp
      cases he
    · cases hp
      decide
  have hfinite : s.HoldsFinite .game .variableStore := by
    subst hs
    intro _ v hv e he
    cases hv
    cases he
  obtain ⟨view, hview⟩ : ∃ view : HostService → StateScope → Json,
    view = fun h _ => h.state := ⟨_, rfl⟩
  have hhost : ∀ h ∈ s.host, h.Recovers view .game ∧ h.scopes = [.game] := by
    subst hs hview
    intro h hh
    cases List.mem_singleton.1 hh
    refine ⟨⟨fun state j hj => ?_, fun _ _ _ _ scope' hscope' hne => ?_⟩, rfl⟩
    · cases hj
      exact ⟨.int 3, by rfl, rfl⟩
    · exact absurd (List.mem_singleton.1 hscope') hne
  have htold : s.ToldBy view := by
    intro h hh k hblank hk
    rw [(hhost h hh).2, hview] at hk
    have hstate : k.state = h.state := hk .game (List.mem_singleton.2 rfl)
    exact (HostService.eq_with_of_blank hblank).trans (by rw [hstate])
  obtain ⟨t, r, hr⟩ : ∃ t r, m.apply .game s = (t, r) := ⟨_, _, rfl⟩
  have herror : r = .error (.record "counter") := by
    have h : (m.apply .game s).2 = .error (.record "counter") := by
      subst hs hm
      rfl
    rwa [hr] at h
  obtain ⟨hall, -⟩ := apply_atomic hn
    (recoverable hwords hfinite fun h hh => (hhost h hh).1) hr
  subst herror
  rcases hall with ⟨h, -⟩ | ⟨-, -, hsame⟩
  · cases h
  · refine ⟨s, m, hs, ?_, ?_, hr.trans (by rw [hsame htold])⟩
    · rw [hm]
      rfl
    · rw [hm]
      rfl

end StateMap

end Playhead
