import Playhead.Proofs.Services.Shape
import Playhead.Proofs.State.Restore
import Playhead.Proofs.State.TakenBack

/-!
Services that took in the records of a set of the same services hand out these records.
-/

namespace Playhead

namespace HostService

/-- A service that hands a record of its own out again after taking it in. -/
def HandsBack (h : HostService) (scope : StateScope) : Prop :=
  ∀ made state state' j, h.record? made scope = some j → h.restore? state scope j = some state' →
    h.record? state' scope = some j

/-- A service whose record of the game stays when it takes in a record that outlives the game. -/
def HoldsApart (h : HostService) : Prop :=
  ∀ state state' j, h.restore? state .global j = some state' →
    h.record? state' .game = h.record? state .game

theorem HandsBack.of_blank {h k : HostService} {scope : StateScope} (hk : k.HandsBack scope)
    (he : h.blank = k.blank) : h.HandsBack scope := by
  obtain ⟨-, -, hrecord, hrestore⟩ := eq_of_blank he
  unfold HandsBack
  rw [hrecord, hrestore]
  exact hk

theorem HoldsApart.of_blank {h k : HostService} (hk : k.HoldsApart) (he : h.blank = k.blank) :
    h.HoldsApart := by
  obtain ⟨-, -, hrecord, hrestore⟩ := eq_of_blank he
  unfold HoldsApart
  rw [hrecord, hrestore]
  exact hk

end HostService

namespace ServiceSet

variable {s t u : ServiceSet} {scope : StateScope} {key : ServiceKey} {j : Json}

/-- Services that are told apart by name, of which those of the host hand their records back and
hold apart what outlives the game. -/
structure Exact (s : ServiceSet) : Prop where
  distinct : s.ids.Nodup
  host : ∀ k ∈ s.host, k.HandsBack .game ∧ k.HandsBack .global ∧ k.HoldsApart

theorem Exact.of_shape {s t : ServiceSet} (ht : t.Exact) (h : s.shape = t.shape) :
    s.Exact := by
  refine ⟨?_, fun k hk => ?_⟩
  · have hids : s.ids = t.ids := by
      unfold ids
      rw [← keys_shape, ← idOf_shape, h, keys_shape, idOf_shape]
    rw [hids]
    exact ht.distinct
  · obtain ⟨i, hi⟩ := List.mem_iff_getElem?.1 hk
    obtain ⟨k', hk', hblank⟩ := host_of_shape h hi
    obtain ⟨hgame, hglobal, happart⟩ := ht.host k' (List.mem_of_getElem? hk')
    exact ⟨hgame.of_blank hblank, hglobal.of_blank hblank, happart.of_blank hblank⟩

/-- Taking in a record changes no other service and leaves the same services. -/
theorem restore_frame (hmem : key ∈ s.keys) (h : s.restore? scope key j = some u) :
    u.shape = s.shape ∧
      ∀ scope' key', key' ≠ key → u.record? scope' key' = s.record? scope' key' :=
  ⟨shape_of_restore hmem h, fun scope' _ hne => (agreesAt_restore h hne).record?_eq scope'⟩

/-- A service that takes in a record of another one of its kind hands out that record. -/
theorem restore_record (hshape : s.shape = t.shape) (hhost : ∀ k ∈ t.host, k.HandsBack scope)
    (hj : t.record? scope key = some j) (h : s.restore? scope key j = some u) :
    u.record? scope key = some j := by
  by_cases hbuiltin : ∀ i, key ≠ .host i
  · exact (of_restore (fun _ _ => ()) hbuiltin hj h).2.1
  · obtain ⟨i, hi⟩ := not_forall.1 hbuiltin
    cases not_not.1 hi
    obtain ⟨k, hk, hj⟩ := Option.bind_eq_some_iff.1 hj
    obtain ⟨k', hk', h⟩ := Option.bind_eq_some_iff.1 h
    obtain ⟨state, hstate, h⟩ := Option.bind_eq_some_iff.1 h
    cases h
    obtain ⟨k'', hk'', hblank⟩ := host_of_shape hshape hk'
    rw [hk] at hk''
    cases hk''
    obtain ⟨-, -, hrecord, hrestore⟩ := HostService.eq_of_blank hblank
    rw [hrestore] at hstate
    obtain ⟨hi, -⟩ := List.getElem?_eq_some_iff.1 hk'
    have hnew : (s.setHost i { k' with state := state }).host[i]? =
        some { k' with state := state } := List.getElem?_set_self hi
    show ((s.setHost i { k' with state := state }).host[i]?.bind fun h =>
      h.record? h.state scope) = some j
    rw [hnew]
    show k'.record? state scope = some j
    rw [hrecord]
    exact hhost k (List.mem_of_getElem? hk) k.state k'.state state j hj hstate

/-- Taking in what outlives the game leaves the records of the game. -/
theorem restore_global (hmem : key ∈ s.inScope .global) (hhost : ∀ k ∈ s.host, k.HoldsApart)
    (h : s.restore? .global key j = some u) {key' : ServiceKey} (hkey : key' ∈ s.inScope .game) :
    u.record? .game key' = s.record? .game key' := by
  obtain ⟨hmem, hscope⟩ := List.mem_filter.1 hmem
  by_cases hne : key' = key
  · subst hne
    cases key' with
    | variableStore =>
      obtain ⟨v, hv, h⟩ := Option.bind_eq_some_iff.1 h
      obtain ⟨m, hm, h⟩ := Option.bind_eq_some_iff.1 h
      cases h
      show some (Value.mapToJson v.game) = s.variableStore.map fun v => Value.mapToJson v.game
      rw [hv]
      rfl
    | host i =>
      obtain ⟨k, hk, h⟩ := Option.bind_eq_some_iff.1 h
      obtain ⟨state, hstate, h⟩ := Option.bind_eq_some_iff.1 h
      cases h
      obtain ⟨hi, -⟩ := List.getElem?_eq_some_iff.1 hk
      have hnew : (s.setHost i { k with state := state }).host[i]? =
          some { k with state := state } := List.getElem?_set_self hi
      show ((s.setHost i { k with state := state }).host[i]?.bind fun h =>
        h.record? h.state .game) = s.host[i]?.bind fun h => h.record? h.state .game
      rw [hnew, hk]
      exact hhost k (List.mem_of_getElem? hk) k.state state j hstate
    | played => exact absurd rfl (mem_inScope_game hkey).1
    | preferences => exact absurd rfl (mem_inScope_game hkey).2
    | textLog | choices | callStack => simp [scopesOf] at hscope
  · exact (restore_frame hmem h).2 .game key' hne

end ServiceSet

namespace StateMap

open ServiceSet

variable {s t u : ServiceSet} {scope : StateScope} {m : StateMap} {keys : List ServiceKey}

/-- What no single record changes, a map that is taken in does not change. -/
theorem applyKeys_keeps (m : StateMap) (scope : StateScope) (keys : List ServiceKey)
    {P : ServiceSet → Prop}
    (hrestore : ∀ s u key j, key ∈ keys → P s → s.restore? scope key j = some u → P u)
    (hreset : ∀ s key, key ∈ keys → P s → m.get? (s.idOf key) = none → P (s.reset scope key))
    (hs : P s) (h : applyKeys m scope s keys = (u, none)) : P u := by
  induction keys generalizing s with
  | nil =>
    cases h
    exact hs
  | cons key rest ih =>
    have ih := fun s hs => @ih s
      (fun s u k j hk => hrestore s u k j (List.mem_cons_of_mem _ hk))
      (fun s k hk => hreset s k (List.mem_cons_of_mem _ hk)) hs
    unfold applyKeys at h
    split at h
    · rename_i hnone
      exact ih _ (hreset s key List.mem_cons_self hs hnone) h
    · rename_i j hj
      unfold restore at h
      cases hr : s.restore? scope key j with
      | none =>
        rw [hr] at h
        cases h
      | some s' =>
        rw [hr] at h
        exact ih s' (hrestore s s' key j List.mem_cons_self hs hr) h

/-- Services that each took in a record of another set of the same services hand out these
records. -/
theorem applyKeys_takes (hn : keys.Nodup) (hhost : ∀ k ∈ t.host, k.HandsBack scope)
    (hkeys : ∀ key ∈ keys, key ∈ t.keys ∧
      ∃ j, t.record? scope key = some j ∧ m.get? (t.idOf key) = some j)
    (hshape : s.shape = t.shape) (h : applyKeys m scope s keys = (u, none)) :
    u.shape = t.shape ∧ (∀ key ∈ keys, u.record? scope key = t.record? scope key) ∧
      ∀ scope' key', key' ∉ keys → u.record? scope' key' = s.record? scope' key' := by
  induction keys generalizing s with
  | nil =>
    cases h
    exact ⟨hshape, fun _ hk => (List.not_mem_nil hk).elim, fun _ _ _ => rfl⟩
  | cons key rest ih =>
    obtain ⟨hmem, j, hj, hget⟩ := hkeys key List.mem_cons_self
    obtain ⟨hnot, hn⟩ := List.nodup_cons.1 hn
    have hid : s.idOf key = t.idOf key := by rw [← idOf_shape s, hshape, idOf_shape]
    have hkeys' : s.keys = t.keys := by rw [← keys_shape s, hshape, keys_shape]
    unfold applyKeys at h
    rw [hid, hget] at h
    unfold restore at h
    cases hr : s.restore? scope key j with
    | none =>
      simp only [hr] at h
      cases h
    | some s' =>
      simp only [hr] at h
      obtain ⟨hshape', hframe⟩ := restore_frame (hkeys' ▸ hmem) hr
      obtain ⟨hu, htook, hkept⟩ := ih hn
        (fun k hk => hkeys k (List.mem_cons_of_mem _ hk)) (hshape'.trans hshape) h
      refine ⟨hu, fun k hk => ?_, fun scope' k hk => ?_⟩
      · rcases List.mem_cons.1 hk with rfl | hk
        · rw [hkept scope k hnot, restore_record hshape hhost hj hr, hj]
        · exact htook k hk
      · obtain ⟨hk, hrest⟩ := not_or.1 (mt List.mem_cons.2 hk)
        rw [hkept scope' k hrest, hframe scope' k hk]

theorem collectKeys_congr (hid : s.idOf = t.idOf)
    (h : ∀ key ∈ keys, s.record? scope key = t.record? scope key) :
    collectKeys s scope keys = collectKeys t scope keys := by
  induction keys with
  | nil => rfl
  | cons key rest ih =>
    unfold collectKeys record
    rw [hid, h key List.mem_cons_self, ih fun k hk => h k (List.mem_cons_of_mem _ hk)]

theorem collect_congr (hshape : s.shape = t.shape)
    (h : ∀ key ∈ t.inScope scope, s.record? scope key = t.record? scope key) :
    collect s scope = collect t scope := by
  unfold collect
  rw [← inScope_shape s, hshape, inScope_shape]
  exact collectKeys_congr (by rw [← idOf_shape s, hshape, idOf_shape]) h

theorem shape_applyKeys (scope : StateScope) (m : StateMap) (s : ServiceSet)
    (hkeys : ∀ key ∈ keys, key ∈ s.keys) : (applyKeys m scope s keys).1.shape = s.shape := by
  induction keys generalizing s with
  | nil => rfl
  | cons key rest ih =>
    have hrest : ∀ {t : ServiceSet}, t.shape = s.shape → ∀ k ∈ rest, k ∈ t.keys := by
      intro t ht k hk
      rw [← keys_shape, ht, keys_shape]
      exact hkeys k (List.mem_cons_of_mem _ hk)
    unfold applyKeys
    split
    · have hreset := shape_reset s scope key
      exact (ih _ (hrest hreset)).trans hreset
    · rename_i j hj
      unfold restore
      cases hr : s.restore? scope key j with
      | none => exact shape_refuse s scope key j
      | some u =>
        have hu := (restore_frame (hkeys key List.mem_cons_self) hr).1
        exact (ih u (hrest hu)).trans hu

/-- Whether a map is taken in or refused, the services are the same ones. -/
theorem shape_apply (m : StateMap) (scope : StateScope) (s : ServiceSet) :
    (m.apply scope s).1.shape = s.shape := by
  have hmem : ∀ {t : ServiceSet}, ∀ key ∈ t.inScope scope, key ∈ t.keys :=
    fun key hk => (List.mem_filter.1 hk).1
  unfold apply
  cases collect s scope with
  | error e => rfl
  | ok backup =>
    have happly := shape_applyKeys scope m s hmem
    dsimp only
    generalize applyKeys m scope s (s.inScope scope) = r at happly ⊢
    obtain ⟨t, _ | e⟩ := r
    · exact happly
    · exact (shape_applyKeys scope backup t hmem).trans happly

/-- Records that were collected of services, put into the same services in another state, are
collected of them again; and the other records stay. -/
theorem collect_of_apply (hn : t.ids.Nodup) (hhost : ∀ k ∈ t.host, k.HandsBack scope)
    (hshape : s.shape = t.shape) (hm : collect t scope = .ok m)
    (h : m.apply scope s = (u, .ok ())) :
    collect u scope = .ok m ∧
      ∀ scope' key', key' ∉ t.inScope scope → u.record? scope' key' = s.record? scope' key' := by
  have hids : ((t.inScope scope).map t.idOf).Nodup :=
    hn.sublist (List.filter_sublist.map _)
  have hinScope : s.inScope scope = t.inScope scope := by
    rw [← inScope_shape, hshape, inScope_shape]
  have hkeys : ∀ key ∈ t.inScope scope, key ∈ t.keys ∧
      ∃ j, t.record? scope key = some j ∧ m.get? (t.idOf key) = some j := fun key hk =>
    ⟨(List.mem_filter.1 hk).1, get?_of_collectKeys hm hids key hk⟩
  unfold apply at h
  cases hc : collect s scope with
  | error e =>
    rw [hc] at h
    cases h
  | ok backup =>
    rw [hc, hinScope] at h
    cases ha : applyKeys m scope s (t.inScope scope) with
    | mk v err =>
      simp only [ha] at h
      cases err with
      | some e => cases h
      | none =>
        cases h
        obtain ⟨hv, htook, hkept⟩ := applyKeys_takes (.of_map _ hids) hhost hkeys hshape ha
        exact ⟨(collect_congr hv htook).trans hm, hkept⟩

/-- Putting in what outlives the game leaves what is collected of the game. -/
theorem collect_game_of_apply (hn : t.ids.Nodup) (hhost : ∀ k ∈ t.host, k.HoldsApart)
    (hshape : s.shape = t.shape) (hm : collect t .global = .ok m)
    (h : m.apply .global s = (u, .ok ())) : collect u .game = collect s .game := by
  have hids : ((t.inScope .global).map t.idOf).Nodup :=
    hn.sublist (List.filter_sublist.map _)
  have hinScope : ∀ {v : ServiceSet}, v.shape = t.shape → ∀ scope,
      v.inScope scope = t.inScope scope := fun hv scope => by
    rw [← inScope_shape, hv, inScope_shape]
  have hkeeps := applyKeys_keeps m .global (t.inScope .global) (u := u)
    (P := fun v => v.shape = t.shape ∧
      ∀ key ∈ t.inScope .game, v.record? .game key = s.record? .game key)
    (fun v w key j hk ⟨hv, hrecord⟩ hr => by
      rw [← hinScope hv] at hk
      have hmem := (List.mem_filter.1 hk).1
      have hapart : ∀ k ∈ v.host, k.HoldsApart := by
        intro k hk
        obtain ⟨i, hi⟩ := List.mem_iff_getElem?.1 hk
        obtain ⟨k', hk', hblank⟩ := host_of_shape hv hi
        exact (hhost k' (List.mem_of_getElem? hk')).of_blank hblank
      refine ⟨(restore_frame hmem hr).1.trans hv, fun key' hk' => ?_⟩
      rw [restore_global hk hapart hr (hinScope hv .game ▸ hk'), hrecord key' hk'])
    (fun v key hk ⟨hv, _⟩ hnone => by
      obtain ⟨j, -, hj⟩ := get?_of_collectKeys hm hids key hk
      rw [← idOf_shape v, hv, idOf_shape, hj] at hnone
      cases hnone)
    ⟨hshape, fun _ _ => rfl⟩
  unfold apply at h
  cases hc : collect s .global with
  | error e =>
    rw [hc] at h
    cases h
  | ok backup =>
    rw [hc, hinScope hshape] at h
    cases ha : applyKeys m .global s (t.inScope .global) with
    | mk v err =>
      simp only [ha] at h
      cases err with
      | some e => cases h
      | none =>
        cases h
        obtain ⟨hv, hrecord⟩ := hkeeps ha
        exact collect_congr (hv.trans hshape.symm)
          fun key hk => hrecord key (hinScope hshape .game ▸ hk)

theorem peers_of_shape (h : s.shape = t.shape) (hhost : t.host = []) : Peers t s := by
  have hsome : ∀ {α β : Type} {a b : Option α} {f : α → β}, a.map f = b.map f →
      b.isSome = a.isSome := by
    intro α β a b f h
    rw [← Option.isSome_map (f := f), ← h, Option.isSome_map]
  refine ⟨hsome (congrArg ServiceSet.variableStore h), hsome (congrArg ServiceSet.textLog h),
    hsome (congrArg ServiceSet.choices h), hsome (congrArg ServiceSet.callStack h), ?_⟩
  rw [hhost, host_eq_nil_of_shape h hhost]

/-- Without services of the host, the records of a game are taken in by the same services in any
state, and collected of them again. -/
theorem exists_apply (ht : t.Storable) (hhost : t.host = []) (hn : t.ids.Nodup)
    (hshape : s.shape = t.shape) (hm : collect t .game = .ok m) :
    ∃ u, m.apply .game s = (u, .ok ()) ∧ collect u .game = .ok m := by
  have hpeers := peers_of_shape hshape hhost
  have hnone : ∀ {P : HostService → Prop}, ∀ k ∈ t.host, P k := fun k hk => by
    rw [hhost] at hk
    cases hk
  have happly := apply_withGames hpeers ht
    ((faithful_of_nodup hn hnone).peers hpeers) hm
  exact ⟨_, happly, (collect_of_apply hn hnone hshape hm happly).1⟩

end StateMap

end Playhead
