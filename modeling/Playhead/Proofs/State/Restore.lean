import Mathlib.Data.List.Nodup
import Playhead.Proofs.Except
import Playhead.Proofs.Services.Shape
import Playhead.Proofs.Standing.Story
import Playhead.Proofs.State.Records

/-!
Putting back the records that were collected of a game gives the game that they were collected of.
-/

namespace Playhead

/-- A service whose own record of the game, put back into it, leaves it as it is. -/
def HostService.TakesBack (h : HostService) : Prop :=
  ∀ j, h.record? h.state .game = some j → h.restore? h.state .game j = some h.state

/-- The variables with those of the game in another store. -/
def VariableStore.withGame (v u : VariableStore) : VariableStore :=
  { v with game := u.game }

namespace ServiceSet

/-- Services that tell their records of the game apart by name, of which those of the host take
back their own. -/
structure Faithful (s : ServiceSet) : Prop where
  distinct : ((s.inScope .game).map s.idOf).Nodup
  host : ∀ h ∈ s.host, h.TakesBack

/-- Services whose records of the game can be read back. -/
structure Storable (s : ServiceSet) : Prop where
  finite : ∀ v, s.variableStore = some v → ∀ e ∈ v.game.entries, e.2.IsFinite
  calls : ∀ k, s.callStack = some k → ∀ f ∈ k.frames, f.index < Decimal.twoTo 64

def globals (s : ServiceSet) : Option (NameMap Value) :=
  s.variableStore.map VariableStore.global

/-- Sets of the same services of the game, with those of the host in the same state. -/
structure Peers (s t : ServiceSet) : Prop where
  variableStore : s.variableStore.isSome = t.variableStore.isSome
  textLog : s.textLog.isSome = t.textLog.isSome
  choices : s.choices.isSome = t.choices.isSome
  callStack : s.callStack.isSome = t.callStack.isSome
  host : s.host = t.host

/-- The services with what one of them holds of the game in another set. -/
def withGame (t s : ServiceSet) : ServiceKey → ServiceSet
  | .variableStore =>
    { s with variableStore := s.variableStore.bind fun v => t.variableStore.map v.withGame }
  | .textLog => { s with textLog := t.textLog }
  | .choices => { s with choices := t.choices }
  | .callStack => { s with callStack := t.callStack }
  | _ => s

variable {s t : ServiceSet} {key : ServiceKey}

theorem Peers.trans {u : ServiceSet} (h : Peers s t) (h' : Peers t u) : Peers s u :=
  ⟨h.variableStore.trans h'.variableStore, h.textLog.trans h'.textLog,
    h.choices.trans h'.choices, h.callStack.trans h'.callStack, h.host.trans h'.host⟩

theorem Peers.symm (h : Peers s t) : Peers t s :=
  ⟨h.variableStore.symm, h.textLog.symm, h.choices.symm, h.callStack.symm, h.host.symm⟩

theorem idOf_eq (h : s.host = t.host) : s.idOf = t.idOf := by
  funext key
  cases key with
  | host i =>
    show (s.host[i]?.map (·.id)).getD "" = (t.host[i]?.map (·.id)).getD ""
    rw [h]
  | _ => rfl

theorem Peers.inScope_game (h : Peers s t) : s.inScope .game = t.inScope .game := by
  have hscopes : s.story.scopesOf = t.story.scopesOf := by
    funext key
    cases key with
    | host i =>
      show (s.host[i]?.map (·.scopes)).getD [] = (t.host[i]?.map (·.scopes)).getD []
      rw [h.host]
    | _ => rfl
  have hkeys : s.story.keys = t.story.keys := by
    unfold keys story
    simp only [h.variableStore, h.textLog, h.choices, h.callStack, h.host]
  rw [← inScope_story s, ← inScope_story t]
  unfold inScope
  rw [hscopes, hkeys]

/-- Services that hold no variable and no call. -/
def isBlank (s : ServiceSet) : Bool :=
  s.variableStore.any (fun v => v.game.entries.isEmpty && v.global.entries.isEmpty) &&
    s.callStack.any (·.frames.isEmpty)

theorem storable_of_isBlank (h : s.isBlank = true) :
    s.Storable ∧ s.globals = some .empty := by
  obtain ⟨hv, hk⟩ := Bool.and_eq_true_iff.1 h
  obtain ⟨v, hvs, hv⟩ := (Option.any_eq_true _ _).1 hv
  obtain ⟨k, hks, hk⟩ := (Option.any_eq_true _ _).1 hk
  obtain ⟨hgame, hglobal⟩ := Bool.and_eq_true_iff.1 hv
  have hframes := List.isEmpty_iff.1 hk
  refine ⟨⟨fun v' hv' e he => ?_, fun k' hk' f hf => ?_⟩, ?_⟩
  · rw [hvs] at hv'
    cases hv'
    rw [List.isEmpty_iff.1 hgame] at he
    cases he
  · rw [hks] at hk'
    cases hk'
    rw [hframes] at hf
    cases hf
  · obtain ⟨game, ⟨entries, ordered⟩⟩ := v
    cases List.isEmpty_iff.1 hglobal
    unfold globals
    rw [hvs]
    rfl

/-- Services that all have names of their own are told apart. -/
theorem faithful_of_nodup (hn : s.ids.Nodup) (hh : ∀ h ∈ s.host, h.TakesBack) : s.Faithful :=
  ⟨hn.sublist (List.filter_sublist.map _), hh⟩

theorem Faithful.peers (hs : s.Faithful) (h : Peers s t) : t.Faithful where
  distinct := by
    rw [← h.inScope_game, ← idOf_eq h.host]
    exact hs.distinct
  host := h.host ▸ hs.host

/-- A service takes in what was recorded of it. -/
theorem restore_withGame (ht : t.Storable) (hhost : ∀ h ∈ t.host, h.TakesBack)
    (hs : s.host = t.host) (hv : t.variableStore.isSome → s.variableStore.isSome)
    (hkey : key ≠ .played ∧ key ≠ .preferences) {j : Json}
    (hj : t.record? .game key = some j) : s.restore .game key j = .ok (t.withGame s key) := by
  suffices h : s.restore? .game key j = some (t.withGame s key) by
    unfold restore
    rw [h]
  cases key with
  | played => exact absurd rfl hkey.1
  | preferences => exact absurd rfl hkey.2
  | variableStore =>
    obtain ⟨u, hu, rfl⟩ := Option.map_eq_some_iff.1 hj
    obtain ⟨v, hv⟩ := Option.isSome_iff_exists.1 (hv (by rw [hu]; rfl))
    have hread := Value.mapOfJson?_mapToJson (ht.finite u hu)
    simp only [restore?, withGame, hv, hu]
    show (Value.mapOfJson? (Value.mapToJson u.game)).bind _ = _
    rw [hread]
    rfl
  | textLog =>
    obtain ⟨l, hl, rfl⟩ := Option.map_eq_some_iff.1 hj
    simp only [restore?, withGame, hl, TextLog.ofJson?_toJson]
    rfl
  | choices =>
    obtain ⟨k, hk, rfl⟩ := Option.map_eq_some_iff.1 hj
    simp only [restore?, withGame, hk, Choices.ofJson?_toJson]
    rfl
  | callStack =>
    obtain ⟨k, hk, rfl⟩ := Option.map_eq_some_iff.1 hj
    simp only [restore?, withGame, hk, CallStack.ofJson?_toJson (ht.calls k hk)]
    rfl
  | host i =>
    obtain ⟨h, hi, hr⟩ := Option.bind_eq_some_iff.1 hj
    have htakes := hhost h (List.mem_of_getElem? hi) j hr
    obtain ⟨hlt, rfl⟩ := List.getElem?_eq_some_iff.1 hi
    have hset : s.host.set i t.host[i] = s.host := by
      rw [hs, List.set_getElem_self]
    simp only [restore?, hs, hi]
    show ((t.host[i].restore? t.host[i].state .game j).bind fun state =>
      some (s.setHost i { t.host[i] with state := state })) = some s
    rw [htakes]
    show some { s with host := s.host.set i t.host[i] } = some s
    rw [hset]

theorem host_withGame (t s : ServiceSet) (key : ServiceKey) :
    (t.withGame s key).host = s.host := by
  cases key <;> rfl

theorem isSome_withGame (hv : t.variableStore.isSome → s.variableStore.isSome)
    (key : ServiceKey) : t.variableStore.isSome → (t.withGame s key).variableStore.isSome := by
  intro h
  cases key with
  | variableStore =>
    obtain ⟨u, hu⟩ := Option.isSome_iff_exists.1 h
    obtain ⟨v, hv⟩ := Option.isSome_iff_exists.1 (hv h)
    simp [withGame, hu, hv]
  | _ => exact hv h

/-- Taking in several services, one after the other. -/
def withGames (t s : ServiceSet) (keys : List ServiceKey) : ServiceSet :=
  keys.foldl t.withGame s

section

variable {keys : List ServiceKey}

theorem withGames_textLog (t s : ServiceSet) : (t.withGames s keys).textLog =
    if .textLog ∈ keys then t.textLog else s.textLog := by
  unfold withGames
  induction keys generalizing s with
  | nil => rfl
  | cons key rest ih =>
    rw [List.foldl_cons, ih]
    cases key <;> simp [withGame]

theorem withGames_choices (t s : ServiceSet) : (t.withGames s keys).choices =
    if .choices ∈ keys then t.choices else s.choices := by
  unfold withGames
  induction keys generalizing s with
  | nil => rfl
  | cons key rest ih =>
    rw [List.foldl_cons, ih]
    cases key <;> simp [withGame]

theorem withGames_callStack (t s : ServiceSet) : (t.withGames s keys).callStack =
    if .callStack ∈ keys then t.callStack else s.callStack := by
  unfold withGames
  induction keys generalizing s with
  | nil => rfl
  | cons key rest ih =>
    rw [List.foldl_cons, ih]
    cases key <;> simp [withGame]

theorem withGames_variableStore (t s : ServiceSet) : (t.withGames s keys).variableStore =
    if .variableStore ∈ keys then
      s.variableStore.bind fun v => t.variableStore.map v.withGame
    else s.variableStore := by
  unfold withGames
  induction keys generalizing s with
  | nil => rfl
  | cons key rest ih =>
    rw [List.foldl_cons, ih]
    cases key with
    | variableStore =>
      have hkey : (t.withGame s .variableStore).variableStore =
          s.variableStore.bind fun v => t.variableStore.map v.withGame := rfl
      rw [hkey]
      cases s.variableStore <;> cases t.variableStore <;> simp [VariableStore.withGame]
    | _ => simp [withGame]

theorem withGames_host (keys : List ServiceKey) (t s : ServiceSet) :
    (t.withGames s keys).host = s.host := by
  unfold withGames
  induction keys generalizing s with
  | nil => rfl
  | cons key rest ih => rw [List.foldl_cons, ih, host_withGame]

end

theorem mem_inScope_game_iff (s : ServiceSet) :
    (.variableStore ∈ s.inScope .game ↔ s.variableStore.isSome) ∧
      (.textLog ∈ s.inScope .game ↔ s.textLog.isSome) ∧
      (.choices ∈ s.inScope .game ↔ s.choices.isSome) ∧
      (.callStack ∈ s.inScope .game ↔ s.callStack.isSome) := by
  simp [inScope, keys, scopesOf]

/-- All that a game holds, taken in from a set with the same globals. -/
theorem story_withGames (hp : Peers t s) (hg : t.globals = s.globals) :
    (t.withGames s (s.inScope .game)).story = t.story := by
  obtain ⟨hv, hl, hc, hk⟩ := mem_inScope_game_iff s
  have habsent : ∀ {α : Type} {a b : Option α}, a.isSome = b.isSome → ¬b.isSome = true →
      b = a := by
    intro α a b hab hb
    cases a <;> cases b <;> simp_all
  have hlog : (t.withGames s (s.inScope .game)).textLog = t.textLog := by
    rw [withGames_textLog]
    split
    · rfl
    · rename_i h
      exact habsent hp.textLog fun hs => h (hl.2 hs)
  have hchoices : (t.withGames s (s.inScope .game)).choices = t.choices := by
    rw [withGames_choices]
    split
    · rfl
    · rename_i h
      exact habsent hp.choices fun hs => h (hc.2 hs)
  have hcalls : (t.withGames s (s.inScope .game)).callStack = t.callStack := by
    rw [withGames_callStack]
    split
    · rfl
    · rename_i h
      exact habsent hp.callStack fun hs => h (hk.2 hs)
  have hvars : (t.withGames s (s.inScope .game)).variableStore = t.variableStore := by
    rw [withGames_variableStore]
    have hsome := hp.variableStore
    unfold globals at hg
    split
    · cases ht : t.variableStore with
      | none => simp
      | some u =>
        cases hs : s.variableStore with
        | none =>
          rw [ht, hs] at hsome
          cases hsome
        | some v =>
          rw [ht, hs] at hg
          have hglobal : u.global = v.global := Option.some.inj hg
          simp [VariableStore.withGame, ← hglobal]
    · rename_i h
      exact habsent hsome fun hs => h (hv.2 hs)
  have hhost := (withGames_host (s.inScope .game) t s).trans hp.host.symm
  unfold story
  rw [hlog, hchoices, hcalls, hvars, hhost]

end ServiceSet

namespace StateMap

open ServiceSet

variable {s t : ServiceSet} {m : StateMap}

/-- The record of a service is found under its name. -/
theorem get?_of_collectKeys {scope : StateScope} {keys : List ServiceKey}
    (h : collectKeys s scope keys = .ok m) (hn : (keys.map s.idOf).Nodup) :
    ∀ key ∈ keys, ∃ j, s.record? scope key = some j ∧ m.get? (s.idOf key) = some j := by
  induction keys generalizing m with
  | nil =>
    intro key hk
    cases hk
  | cons k rest ih =>
    obtain ⟨j, hj, h⟩ := exists_of_bind_ok h
    obtain ⟨n, hrest, h⟩ := exists_of_bind_ok h
    cases h
    obtain ⟨hk, hn⟩ := List.nodup_cons.1 hn
    intro key hmem
    rcases List.mem_cons.1 hmem with rfl | hmem
    · refine ⟨j, record_eq_ok.1 hj, ?_⟩
      rw [NameMap.get?_insert, if_pos rfl]
    · obtain ⟨i, hi, hget⟩ := ih hrest hn key hmem
      refine ⟨i, hi, ?_⟩
      rw [NameMap.get?_insert, if_neg, hget]
      intro heq
      exact hk (heq ▸ List.mem_map_of_mem hmem)

theorem applyKeys_eq (ht : t.Storable) (hhost : ∀ h ∈ t.host, h.TakesBack)
    {keys : List ServiceKey} (hs : s.host = t.host)
    (hv : t.variableStore.isSome → s.variableStore.isSome)
    (hk : ∀ key ∈ keys, (key ≠ .played ∧ key ≠ .preferences) ∧
      ∃ j, t.record? .game key = some j ∧ m.get? (t.idOf key) = some j) :
    applyKeys m .game s keys = (t.withGames s keys, none) := by
  induction keys generalizing s with
  | nil => rfl
  | cons key rest ih =>
    obtain ⟨hkey, j, hj, hget⟩ := hk key List.mem_cons_self
    unfold applyKeys
    rw [idOf_eq hs, hget]
    simp only [restore_withGame ht hhost hs hv hkey hj]
    exact ih ((host_withGame t s key).trans hs) (isSome_withGame hv key)
      fun k h => hk k (List.mem_cons_of_mem _ h)

/-- Records are collected if every service can hand out its own. -/
theorem collectKeys_eq_ok_iff {scope : StateScope} {keys : List ServiceKey} :
    (∃ m, collectKeys s scope keys = .ok m) ↔
      ∀ key ∈ keys, (s.record? scope key).isSome := by
  induction keys with
  | nil => exact ⟨fun _ key hk => absurd hk List.not_mem_nil, fun _ => ⟨_, rfl⟩⟩
  | cons key rest ih =>
    rw [List.forall_mem_cons, ← ih]
    constructor
    · rintro ⟨m, h⟩
      obtain ⟨j, hj, h⟩ := exists_of_bind_ok h
      obtain ⟨n, hrest, -⟩ := exists_of_bind_ok h
      exact ⟨Option.isSome_iff_exists.2 ⟨j, record_eq_ok.1 hj⟩, n, hrest⟩
    · rintro ⟨hj, n, hn⟩
      obtain ⟨j, hj⟩ := Option.isSome_iff_exists.1 hj
      refine ⟨n.insert (s.idOf key) j, ?_⟩
      unfold collectKeys
      rw [record_eq_ok.2 hj, hn]
      rfl

theorem collect_of_peers (hp : Peers t s) (h : collect t .game = .ok m) :
    ∃ n, collect s .game = .ok n := by
  have hkeys := collectKeys_eq_ok_iff.1 ⟨m, h⟩
  unfold collect
  rw [← hp.inScope_game]
  refine collectKeys_eq_ok_iff.2 fun key hk => ?_
  have hkey := hkeys key hk
  cases key with
  | played => exact absurd rfl (mem_inScope_game hk).1
  | preferences => exact absurd rfl (mem_inScope_game hk).2
  | variableStore =>
    simp only [record?, Option.isSome_map] at hkey ⊢
    rw [← hp.variableStore]
    exact hkey
  | textLog =>
    simp only [record?, Option.isSome_map] at hkey ⊢
    rw [← hp.textLog]
    exact hkey
  | choices =>
    simp only [record?, Option.isSome_map] at hkey ⊢
    rw [← hp.choices]
    exact hkey
  | callStack =>
    simp only [record?, Option.isSome_map] at hkey ⊢
    rw [← hp.callStack]
    exact hkey
  | host i =>
    simp only [record?] at hkey ⊢
    rw [← hp.host]
    exact hkey

/-- Records that were collected of a game, put into a set of its peers. -/
theorem apply_withGames (hp : Peers t s) (ht : t.Storable) (hs : s.Faithful)
    (h : collect t .game = .ok m) :
    m.apply .game s = (t.withGames s (s.inScope .game), .ok ()) := by
  obtain ⟨n, hcollect⟩ := collect_of_peers hp h
  have hnodup : ((t.inScope .game).map t.idOf).Nodup := by
    rw [hp.inScope_game, idOf_eq hp.host]
    exact hs.distinct
  have happly : applyKeys m .game s (s.inScope .game) =
      (t.withGames s (s.inScope .game), none) := by
    refine applyKeys_eq ht (hp.host ▸ hs.host) hp.host.symm (fun hv => hp.variableStore ▸ hv) ?_
    rw [← hp.inScope_game]
    exact fun key hk => ⟨mem_inScope_game hk, get?_of_collectKeys h hnodup key hk⟩
  unfold apply
  rw [hcollect]
  simp only [happly]

/-- Put into a set with the same globals, the records give the game that they were collected of. -/
theorem apply_collect (hp : Peers t s) (hg : t.globals = s.globals) (ht : t.Storable)
    (hs : s.Faithful) (h : collect t .game = .ok m) :
    ∃ u, m.apply .game s = (u, .ok ()) ∧ u.story = t.story :=
  ⟨_, apply_withGames hp ht hs h, story_withGames hp hg⟩

end StateMap

end Playhead
