import Playhead.Proofs.Bearings.Placed
import Playhead.Proofs.Services.Engine
import Playhead.Proofs.State.Saves

/-!
A game that is loaded is the game that was saved, whatever the host did in between, as long as the
save and the scripts stayed as they were.
-/

namespace Playhead

/-- Whether an operation writes to a slot, empties it or changes a script that was read. -/
def Operation.Disturbs (slot : String) (e : Engine) : Operation → Prop
  | .save other | .delete other => other = slot
  | .quickSave => e.config.state.quickSlot = slot
  | .loadScript name text =>
    ∃ d, e.library.get? name = some d ∧ (e.loadScript name text).1.library.get? name ≠ some d
  | .reloadScript name =>
    ∃ d, e.library.get? name = some d ∧ (e.reloadScript name).1.library.get? name ≠ some d
  | _ => False

namespace Engine

variable {e e' : Engine} {slot : String} {map : StateMap} {op : Operation} {σ : ServiceSet}

theorem saves_saveScope (e : Engine) (scope : StateScope) (other : String) :
    (e.saveScope scope other).1.saves = e.saves ∨ ∃ map',
      (e.saveScope scope other).1.saves = (e.saves.save e.files scope other map').2.1 := by
  unfold saveScope
  split
  · exact .inl rfl
  · exact .inr ⟨_, rfl⟩

theorem saves_saveGame (e : Engine) (other : String) :
    (e.saveGame other).1.saves = e.saves ∨ ∃ record m map',
      e.playbackRecord? = some record ∧
      e.playback.manager.saveMap e.services record e.config.state.savedSteps = (m, .ok map') ∧
      (e.saveGame other).1.saves = (e.saves.save e.files .game other map').2.1 := by
  unfold saveGame
  split
  · exact .inl rfl
  · rename_i record hrecord
    split
    · exact .inl rfl
    · rename_i m map' hmap
      exact .inr ⟨record, m, map', hrecord, hmap, rfl⟩

/-- What does not disturb a slot leaves what it holds. -/
theorem spares_of_not_disturbs (hv : e.saves.Stores slot map) (h : ¬op.Disturbs slot e) :
    op.Spares (SaveSlots.Stores slot map) e := by
  have hgame : ∀ other, other ≠ slot → (e.saveGame other).1.saves.Stores slot map := by
    intro other hne
    rcases e.saves_saveGame other with hsame | ⟨record, m, map', -, -, hsave⟩
    · exact hsame ▸ hv
    · exact hsave ▸ hv.save e.files .game (fun _ => hne) map'
  have hscope : ∀ scope other, scope ≠ .game →
      (e.saveScope scope other).1.saves.Stores slot map := by
    intro scope other hne
    rcases e.saves_saveScope scope other with hsame | ⟨map', hsave⟩
    · exact hsame ▸ hv
    · exact hsave ▸ hv.save e.files scope (fun h => absurd h hne) map'
  cases op with
  | save other => exact hgame other h
  | quickSave => exact hgame _ h
  | delete other => exact hv.delete e.files h
  | saveGlobal => exact hscope .global _ (by decide)
  | saveSettings => exact hscope .settings _ (by decide)
  | _ => exact trivial

theorem library_scriptReplaced (e : Engine) (d : Document) :
    (e.scriptReplaced d).library = e.library := by
  unfold scriptReplaced
  dsimp only
  split
  · have hstop := congrArg Bearings.library
      (e.cancelPlaybackScope.playback.bearings_stop .scriptReloaded)
    exact hstop.trans (congrArg Bearings.library e.bearings_cancelPlaybackScope)
  · rfl

/-- Reading a script anew leaves the others as they were read. -/
theorem held_replaceScript {read : Except LibraryError (Document × ScriptLibrary)}
    {name : String} {d : Document} (hd : e.library.get? name = some d)
    (hread : ∀ d' k, read = .ok (d', k) → k.get? name = e.library.get? name) :
    (e.replaceScript read).1.library.get? name = some d := by
  unfold replaceScript
  cases read with
  | error err => exact hd
  | ok r =>
    obtain ⟨d', k⟩ := r
    dsimp only
    rw [library_scriptReplaced]
    exact (hread d' k rfl).trans hd

/-- A script stays as it was read. -/
theorem held_perform (he : e.Read) (h : ¬op.Disturbs slot e) {name : String} {d : Document}
    (hd : e.library.get? name = some d) : (e.perform op).library.get? name = some d := by
  by_cases hrereads : op.Rereads
  · cases op with
    | loadScript other text =>
      by_cases hname : other = name
      · subst hname
        exact Classical.byContradiction fun hne => h ⟨d, hd, hne⟩
      · refine held_replaceScript hd fun d' k hread => ?_
        rw [insert_get? hread, if_neg hname]
    | reloadScript other =>
      by_cases hname : other = name
      · subst hname
        exact Classical.byContradiction fun hne => h ⟨d, hd, hne⟩
      · refine held_replaceScript hd fun d' k hread => ?_
        rw [ScriptLibrary.reload_eq_ok hread]
        exact (NameMap.get?_insert e.library.documents other name d').trans (if_neg hname)
    | _ => exact hrereads.elim
  · have hwithin : op.Within (.free False) e := within_free hrereads
    have hturns := perform_turns he hwithin
    exact hturns.turns.held id hd

theorem performAll_spares (he : e.Tame σ (SaveSlots.Stores slot map)) (hr : e.Read)
    {l : List Operation} (hl : ∀ op ∈ l, op.Keeps σ)
    (hd : ∀ before op after, l = before ++ op :: after →
      ¬op.Disturbs slot (e.performAll before)) :
    (e.performAll l).Tame σ (SaveSlots.Stores slot map) ∧
      ∀ name d, e.library.get? name = some d → (e.performAll l).library.get? name = some d := by
  induction l generalizing e with
  | nil => exact ⟨he, fun _ _ h => h⟩
  | cons op rest ih =>
    have hop : ¬op.Disturbs slot e := hd [] op rest rfl
    have htame := he.perform (hl op List.mem_cons_self) (spares_of_not_disturbs he.saves hop)
    have hread : (e.perform op).Read := hr.turns (performAll_free hr [op])
    obtain ⟨hrest, hheld⟩ := ih htame hread (fun op h => hl op (List.mem_cons_of_mem _ h))
      fun before op' after heq => hd (op :: before) op' after (by rw [heq]; rfl)
    exact ⟨hrest, fun name d h => hheld name d (held_perform hr hop h)⟩

/-- A game that was saved to memory is in the slot, as it was put together. -/
theorem saveGame_ok {slots : ByScope (NameMap StateMap)} (hv : e.saves = .memory slots)
    (h : e.saveGame slot = (e', .ok ())) :
    ∃ record m map v, e.playbackRecord? = some record ∧
      e.playback.manager.saveMap e.services record e.config.state.savedSteps = (m, .ok map) ∧
      v.Stores slot map ∧ e' = { e.withManager m with saves := v } := by
  unfold saveGame at h
  cases hrecord : e.playbackRecord? with
  | none =>
    rw [hrecord] at h
    cases h
  | some record =>
    rw [hrecord] at h
    dsimp only at h
    generalize hmap : e.playback.manager.saveMap e.services record e.config.state.savedSteps = r
      at h
    obtain ⟨m, err | map⟩ := r
    · cases h
    · have hresult : (e.saves.save e.files .game slot map).2.2 = .ok () :=
        exists_of_mapError_ok (congrArg Prod.snd h)
      have hfiles : (e.saves.save e.files .game slot map).1 = e.files :=
        SaveSlots.save_memory hv .game
      have hend : ({ e.withManager m with
          files := (e.saves.save e.files .game slot map).1
          saves := (e.saves.save e.files .game slot map).2.1 } : Engine) = e' :=
        congrArg Prod.fst h
      rw [hfiles] at hend
      exact ⟨record, m, map, _, rfl, hmap, SaveSlots.stores_save hv hresult, hend.symm⟩

/-- Reading a game whose script is at hand. -/
theorem readGame_ok {save : GameSave} {record : PlaybackRecord} {d : Document} {f : Engine}
    (hv : e.saves.Stores slot map) (hmap : GameSave.ofMap map = .ok save)
    (hrecord : save.playback = some record)
    (hload : e.loadDocument record.spot.script = (f, .ok d)) (hi : record.spot.index ≤ d.size) :
    e.readGame slot = (f, .ok (save, record, d)) := by
  unfold readGame
  rw [hv.load e.files]
  simp only [Except.mapError, bind, Except.bind, hmap, hrecord, hload, if_neg (Nat.not_lt.2 hi)]

/-- Loading a game whose records are taken in. -/
theorem loadGame_eq {save : GameSave} {record : PlaybackRecord} {d : Document} {s : ServiceSet}
    {f : Engine} (hread : e.readGame slot = (f, .ok (save, record, d)))
    (happly : save.records.apply .game f.cancelPlaybackScope.services = (s, .ok ())) :
    ∃ m, e.loadGame slot = (((f.cancelPlaybackScope.withManager m).withServices s).onPlayback
        (·.restorePosition d record.spot.index record.played record.waiting), .ok ()) ∧
      m.stack = f.cancelPlaybackScope.stack.replace
        (if d.revision = record.revision then save.rollback else []) := by
  obtain ⟨u, hu⟩ : ∃ u, u = f.cancelPlaybackScope := ⟨_, rfl⟩
  rw [← hu] at happly ⊢
  have hload : u.playback.manager.load u.services .game save.records =
      (u.playback.manager.remember .game save.records, s, .ok ()) := by
    unfold StateManager.load
    rw [happly]
  refine ⟨{ u.playback.manager.remember .game save.records with
    stack := u.stack.replace (if d.revision = record.revision then save.rollback else []) },
    ?_, rfl⟩
  unfold loadGame
  rw [hread]
  dsimp only
  rw [← hu, hload]
  rfl

/-- Loading a game whose script has not changed and whose records are taken in. -/
theorem loadGame_ok {save : GameSave} {record : PlaybackRecord} {d : Document} {s : ServiceSet}
    (hread : e.readGame slot = (e, .ok (save, record, d)))
    (happly : save.records.apply .game e.cancelPlaybackScope.services = (s, .ok ()))
    (hrevision : d.revision = record.revision) :
    ∃ e', e.loadGame slot = (e', .ok ()) ∧ e'.services = s ∧
      e'.bearings = { e.bearings.moveTo d record.spot.index with
        played := record.played, active := none, stack := e.stack.replace save.rollback } := by
  obtain ⟨m, hload, hm⟩ := loadGame_eq hread happly
  rw [if_pos hrevision] at hm
  have hub := e.bearings_cancelPlaybackScope
  obtain ⟨v, hv⟩ : ∃ v, v = (e.cancelPlaybackScope.withManager m).withServices s := ⟨_, rfl⟩
  have hvb : v.bearings = { e.cancelPlaybackScope.bearings with stack := m.stack } := by
    rw [hv]
    rfl
  have hstack : e.cancelPlaybackScope.stack = e.stack := congrArg Bearings.stack hub
  rw [hm, hstack, hub] at hvb
  have hidle : v.bearings.active = none := congrArg Bearings.active hvb
  refine ⟨_, hload, ?_, ?_⟩
  · have hcancel : v.playback.cancelActive = v.playback := Playback.cancelActive_of_idle hidle
    rw [← hv]
    show (v.playback.restorePosition d record.spot.index record.played record.waiting).services = s
    rw [Playback.services_restorePosition, hcancel, hv]
    rfl
  · rw [← hv, bearings_restorePosition hidle, hvb]
    rfl

/-- What holds of every state that comes about: scripts are as they were read, the cursor is inside
the script that plays, and history is in order. -/
structure Reached (e : Engine) : Prop where
  read : e.Read
  placed : e.bearings.Placed
  retained : Retained e.stack.snapshots

theorem reached_performAll {config : Config} {parts : EngineParts}
    (h : build config parts = .ok e) (l : List Operation) : (e.performAll l).Reached := by
  have hfresh := fresh_build h
  have hturns := performAll_free hfresh.read l
  have hplaced := Bearings.placed_of_document hfresh.document hfresh.index
  have hretained : Retained e.bearings.stack.snapshots := hfresh.stack.symm ▸ .nil
  exact ⟨hfresh.read.turns hturns, hplaced.turns hturns.turns,
    hretained.turns (fun _ _ h => h) hturns.turns⟩

/-- Counts that fit the words which a save keeps them in. -/
structure Fits (e : Engine) : Prop where
  index : ∀ i, e.cursor.index = some i → i < Decimal.twoTo 64
  played : e.cursor.played < Decimal.twoTo 64
  snapshots : ∀ x ∈ e.stack.snapshots,
    x.spot.index < Decimal.twoTo 64 ∧ x.played < Decimal.twoTo 64

/-- Where a loaded game is: it holds the records of the saved one, at its spot and with nothing in
flight, and as many of its newest snapshots as were saved and have room. -/
structure TakesUp (e' e : Engine) (depth : Nat) : Prop where
  records : ∃ m, StateMap.collect e.services .game = .ok m ∧
    StateMap.collect e'.services .game = .ok m
  spot : e'.cursor.spot? = e.cursor.spot?
  played : e'.cursor.played =
    if e.player.active.isSome then e.cursor.played - 1 else e.cursor.played
  idle : e'.player.active = none
  snapshots : e'.stack.snapshots = e.stack.tail (min e.config.state.savedSteps depth)

/-- The names of the built-in services are not those of reserved records. -/
theorem not_reserved_of_builtin {s : ServiceSet} (hhost : s.host = []) :
    ∀ key ∈ s.keys, GameSave.isReserved (s.idOf key) = false := by
  intro key hkey
  cases key with
  | host i => simp [ServiceSet.keys, hhost] at hkey
  | _ => simp [ServiceSet.idOf, GameSave.isReserved]

/-- No record is kept under a reserved name if no service has one. -/
theorem get?_reserved {s : ServiceSet}
    (hfree : ∀ key ∈ s.keys, GameSave.isReserved (s.idOf key) = false) {scope : StateScope}
    {m : StateMap} (h : StateMap.collect s scope = .ok m) {name : String}
    (hname : GameSave.isReserved name = true) : m.get? name = none := by
  have hcollect : ∀ keys, (∀ key ∈ keys, key ∈ s.keys) → ∀ m,
      StateMap.collectKeys s scope keys = .ok m → m.get? name = none := by
    intro keys
    induction keys with
    | nil =>
      intro _ m h
      cases h
      rfl
    | cons key rest ih =>
      intro hkeys m h
      obtain ⟨j, -, h⟩ := exists_of_bind_ok h
      obtain ⟨n, hn, h⟩ := exists_of_bind_ok h
      cases h
      have hid : s.idOf key ≠ name := by
        rintro rfl
        rw [hfree key (hkeys key List.mem_cons_self)] at hname
        cases hname
      rw [NameMap.get?_insert, if_neg hid]
      exact ih (fun key hk => hkeys key (List.mem_cons_of_mem _ hk)) n hn
  exact hcollect _ (fun key hk => (List.mem_filter.1 hk).1) m h

theorem fits_of_verify {x : Snapshot} (hx : x.verify = .ok ())
    (hfits : x.spot.index < Decimal.twoTo 64 ∧ x.played < Decimal.twoTo 64) : x.Fits := by
  refine ⟨?_, hfits.1, hfits.2⟩
  unfold Snapshot.verify at hx
  split at hx
  · cases hx
  · rename_i hversion
    rw [not_not.1 hversion]
    decide

/-- What is read of a game that was just put together: it stands at a command of the script that
plays. -/
theorem ofMap_saved (hp : e.bearings.Placed) (hr : Retained e.stack.snapshots)
    (hnames : ∀ key ∈ e.services.keys, GameSave.isReserved (e.services.idOf key) = false)
    (hfits : e.Fits) {record : PlaybackRecord} (hrecord : e.playbackRecord? = some record)
    {m : StateManager}
    (hmap : e.playback.manager.saveMap e.services record e.config.state.savedSteps =
      (m, .ok map)) :
    ∃ d i records, e.player.document = some d ∧ e.cursor.index = some i ∧ i < d.size ∧
      record = ⟨⟨d.name, i⟩, d.revision,
        if e.player.active.isSome then e.cursor.played - 1 else e.cursor.played,
        e.cursor.waiting⟩ ∧
      StateMap.collect e.services .game = .ok records ∧
      GameSave.ofMap map =
        .ok ⟨records, some record, e.stack.tail e.config.state.savedSteps⟩ := by
  obtain ⟨spot, hspot, rfl⟩ := Option.map_eq_some_iff.1 hrecord
  obtain ⟨i, hi, rfl⟩ := Option.map_eq_some_iff.1 hspot
  obtain ⟨d, hd⟩ : ∃ d, e.player.document = some d := by
    refine Option.ne_none_iff_exists'.1 fun hnone => ?_
    cases (hp.idle hnone).symm.trans hi
  obtain ⟨hscript, hrevision⟩ := hp.script d hd
  have hplayed : (if e.player.active.isSome then e.cursor.played - 1 else e.cursor.played) <
      Decimal.twoTo 64 := by
    refine Nat.lt_of_le_of_lt ?_ hfits.played
    split
    · exact Nat.sub_le _ _
    · exact Nat.le_refl _
  obtain ⟨records, hcollect, -, hparts⟩ := StateManager.ofMap_saveMap hmap (hfits.index i hi)
    hplayed (fun x hx => fits_of_verify (hr.verified x hx) (hfits.snapshots x hx))
    hr.verified fun records name hc hname => get?_reserved hnames hc hname
  refine ⟨d, i, records, hd, hi, hp.inside d i hd hi, ?_, hcollect, hparts⟩
  rw [show e.cursor.script = d.name from hscript, show e.cursor.revision = d.revision from
    hrevision]

/-- The saved game is taken up by every engine over the same services that holds its save and its
script. -/
theorem loadGame_takesUp {f : Engine} (hp : e.bearings.Placed) (hr : Retained e.stack.snapshots)
    (hhost : e.services.host = []) (hn : e.services.ids.Nodup) (hs : e.services.Storable)
    (hfits : e.Fits) (hheld : ∀ d, e.player.document = some d → f.library.get? d.name = some d)
    {record : PlaybackRecord} (hrecord : e.playbackRecord? = some record) {m : StateManager}
    (hmap : e.playback.manager.saveMap e.services record e.config.state.savedSteps = (m, .ok map))
    (hstores : f.saves.Stores slot map)
    (hshape : f.cancelPlaybackScope.services.shape = e.services.shape) :
    ∃ e', f.loadGame slot = (e', .ok ()) ∧ e'.TakesUp e f.stack.depth := by
  obtain ⟨d, i, records, hd, hi, hinside, rfl, hcollect, hparts⟩ :=
    ofMap_saved hp hr (not_reserved_of_builtin hhost) hfits hrecord hmap
  have hload : f.loadDocument d.name = (f, .ok d) := by
    unfold loadDocument ScriptLibrary.load
    rw [hheld d hd]
    rfl
  have hread := readGame_ok hstores hparts rfl hload hinside.le
  obtain ⟨s, happly, hback⟩ := StateMap.exists_apply hs hhost hn hshape hcollect
  obtain ⟨e', hload, hservices, hbearings⟩ := loadGame_ok hread happly rfl
  refine ⟨e', hload, ⟨records, hcollect, hservices ▸ hback⟩, ?_, ?_, ?_, ?_⟩
  · have hindex : e'.cursor.index = some i :=
      (congrArg Bearings.index hbearings).trans (if_pos hinside)
    have hname : e'.cursor.script = d.name := congrArg Bearings.script hbearings
    have hscript : e.cursor.script = d.name := (hp.script d hd).1
    unfold Cursor.spot?
    rw [hindex, hname, hi, hscript]
  · exact congrArg Bearings.played hbearings
  · exact congrArg Bearings.active hbearings
  · have hstack : e'.stack = f.stack.replace (e.stack.tail e.config.state.savedSteps) :=
      congrArg Bearings.stack hbearings
    rw [hstack]
    exact RollbackStack.replace_tail e.stack f.stack hr.ordered e.config.state.savedSteps

/-- A game that was saved to memory is loaded as it was saved, if the script that plays is the one
that is held, and neither the slot nor a script was changed since. -/
theorem loadGame_saveGame {config : Config} {parts : EngineParts} {e₀ e₁ : Engine}
    (hbuild : build config parts = .ok e₀) (hhost : parts.services = [])
    (hcommands : ∀ h ∈ parts.commands, ∀ c t, h.begin c = .ok t → t.Tame)
    {l : List Operation} (hl : ∀ op ∈ l, op.Keeps e₀.services.shape)
    (he : e = e₀.performAll l) {slots : ByScope (NameMap StateMap)} (hv : e.saves = .memory slots)
    (hs : e.services.Storable) (hfits : e.Fits)
    (hheld : ∀ d, e.player.document = some d → e.library.get? d.name = some d)
    (hsave : e.saveGame slot = (e₁, .ok ())) {l' : List Operation}
    (hl' : ∀ op ∈ l', op.Keeps e₀.services.shape)
    (hd : ∀ before op after, l' = before ++ op :: after →
      ¬op.Disturbs slot (e₁.performAll before)) :
    ∃ e₂, (e₁.performAll l').loadGame slot = (e₂, .ok ()) ∧
      e₂.TakesUp e (e₁.performAll l').stack.depth := by
  have hreached : e.Reached := he ▸ reached_performAll hbuild l
  have htame : e.Tame e₀.services.shape fun _ => True :=
    he ▸ (tame_build hbuild hcommands).performAll_of_free hl
  obtain ⟨hnodup, -, hnone⟩ := services_build hbuild
  have hexact : e.services.Exact := by
    refine ServiceSet.Exact.of_shape ⟨hnodup, fun k hk => ?_⟩ htame.playback.shape
    rw [hnone, hhost] at hk
    cases hk
  have hhostless : e.services.host = [] := by
    have hmap : e.services.host.map HostService.blank = e₀.services.host.map HostService.blank :=
      congrArg ServiceSet.host htame.playback.shape
    rw [hnone, hhost] at hmap
    exact List.map_eq_nil_iff.1 hmap
  obtain ⟨record, m, map, v, hrecord, hmap, hstores, he₁⟩ := saveGame_ok hv hsave
  have hsaved : e₁.Tame e₀.services.shape (SaveSlots.Stores slot map) := by
    have h : (e.saveGame slot).1.Tame e₀.services.shape fun _ => True := htame.saveGame trivial
    rw [hsave] at h
    exact ⟨h.registry, h.playback, h.runs, he₁ ▸ hstores⟩
  have hread : e₁.Read := by
    have h := hreached.read.turns (saveGame_turns (w := .none) e slot)
    rw [hsave] at h
    exact h
  obtain ⟨hlater, hkept⟩ := performAll_spares hsaved hread hl' hd
  refine loadGame_takesUp hreached.placed hreached.retained hhostless hexact.distinct hs hfits
    (fun d hd => ?_)
    hrecord hmap hlater.saves ?_
  · have hlibrary : e₁.library = e.library := by rw [he₁]; rfl
    exact hkept d.name d (hlibrary ▸ hheld d hd)
  · exact hlater.cancelPlaybackScope.playback.shape.trans htame.playback.shape.symm

def threeLines : Operation :=
  .loadScript "tale" "first\nsecond\nthird\n"

/-- A run that plays the tale and goes on once. -/
def tellOn : List Operation :=
  [.playFrom "tale" 0, .input (.tick 0), .input .goOn, .input (.tick 0)]

/-- An engine that has told the tale to its last line, with what a save of it depends on. -/
structure ToldOn (e₀ t : Engine) : Prop where
  built : build {} {} = .ok e₀
  run : t = e₀.performAll (threeLines :: tellOn)
  memory : ∃ slots, t.saves = .memory slots
  blank : t.services.isBlank = true
  fits : t.Fits
  held : ∀ d, t.player.document = some d → t.library.get? d.name = some d
  saved : t.saveGame "a" = ((t.saveGame "a").1, .ok ())

theorem exists_toldOn (check : Engine → Bool) (hcheck : ((build {} {}).toOption.any fun e =>
    check (e.performAll (threeLines :: tellOn))) = true) :
    ∃ e₀ t, ToldOn e₀ t ∧ check t = true := by
  have hrun : ((build {} {}).toOption.any fun e =>
      let t := e.performAll (threeLines :: tellOn)
      (e.perform threeLines).player.document.isNone ∧ t.saves.isMemory ∧ t.services.isBlank ∧
        (t.cursor.index.all fun i => i < Decimal.twoTo 64) ∧
        t.cursor.played < Decimal.twoTo 64 ∧
        (t.stack.snapshots.all fun x =>
          x.spot.index < Decimal.twoTo 64 ∧ x.played < Decimal.twoTo 64) ∧
        (t.saveGame "a").2.toOption = some ()) = true := by
    decide +kernel
  obtain ⟨e₀, he₀, hrun⟩ := (Option.any_eq_true _ _).1 hrun
  rw [he₀] at hcheck
  obtain ⟨hidle, hmemory, hblank, hindex, hplayed, hsnapshots, hsave⟩ := of_decide_eq_true hrun
  have hbuild := eq_ok_of_toOption he₀
  obtain ⟨t, ht⟩ : ∃ t, t = e₀.performAll (threeLines :: tellOn) := ⟨_, rfl⟩
  obtain ⟨u, hu⟩ : ∃ u, u = e₀.perform threeLines := ⟨_, rfl⟩
  rw [← ht] at hmemory hblank hindex hplayed hsnapshots hsave
  rw [← hu] at hidle
  have hslots : ∃ slots, t.saves = .memory slots := by
    cases h : t.saves with
    | memory slots => exact ⟨slots, rfl⟩
    | directory root =>
      rw [h] at hmemory
      cases hmemory
  have hfits : t.Fits := by
    refine ⟨fun i hi => ?_, hplayed, fun x hx => ?_⟩
    · rw [hi] at hindex
      exact of_decide_eq_true hindex
    · exact of_decide_eq_true (List.all_eq_true.1 hsnapshots x hx)
  have hheld : ∀ d, t.player.document = some d → t.library.get? d.name = some d := by
    have hread := (fresh_build hbuild).read
    have hturns : Turns (.free False) u t := by
      have hu' : u.Read := hu ▸ hread.turns (performAll_free hread [threeLines])
      rw [ht, performAll_cons, ← hu]
      refine performAll_turns hu' fun before op after heq => within_free ?_
      have hmem : op ∈ tellOn := by rw [heq]; simp
      simp only [tellOn, List.mem_cons, List.not_mem_nil, or_false] at hmem
      rcases hmem with rfl | rfl | rfl | rfl <;> exact id
    refine hturns.turns.holds_document id fun d hd => ?_
    rw [show u.player.document = some d from hd] at hidle
    cases hidle
  have hchecked : check t = true := by
    rw [ht]
    exact hcheck
  exact ⟨e₀, t, ⟨hbuild, ht, hslots, hblank, hfits, hheld,
    Prod.ext rfl (eq_ok_of_toOption hsave)⟩, hchecked⟩

/-- What a host does between saving and loading. -/
def meanwhile : List Operation :=
  [.input .goOn, .input (.tick 0), .setDepth 1]

/-- A tale that was saved at its last line is taken up there, with the one snapshot that there is
room for. -/
theorem loadGame_saveGame_tale : ∃ e₀ e₁ e₂, build {} {} = .ok e₀ ∧
    (e₀.performAll (threeLines :: tellOn)).saveGame "a" = (e₁, .ok ()) ∧
    (e₁.performAll meanwhile).loadGame "a" = (e₂, .ok ()) ∧
    e₂.TakesUp (e₀.performAll (threeLines :: tellOn)) 1 := by
  obtain ⟨e₀, t, htold, hdepth⟩ := exists_toldOn
    (fun t => ((t.saveGame "a").1.performAll meanwhile).stack.depth = 1) (by decide +kernel)
  have hdepth := of_decide_eq_true hdepth
  obtain ⟨slots, hslots⟩ := htold.memory
  have hkeeps : ∀ op ∈ threeLines :: tellOn, op.Keeps e₀.services.shape := by
    intro op hop
    simp only [threeLines, tellOn, List.mem_cons, List.not_mem_nil, or_false] at hop
    rcases hop with rfl | rfl | rfl | rfl | rfl <;> exact trivial
  have hmeanwhile : ∀ op ∈ meanwhile, op.Keeps e₀.services.shape ∧ ∀ e, ¬op.Disturbs "a" e := by
    intro op hop
    simp only [meanwhile, List.mem_cons, List.not_mem_nil, or_false] at hop
    rcases hop with rfl | rfl | rfl <;> exact ⟨trivial, fun _ => id⟩
  have hcalm : ∀ before op after, meanwhile = before ++ op :: after →
      ¬op.Disturbs "a" ((t.saveGame "a").1.performAll before) := by
    intro before op after heq
    have hop : op ∈ meanwhile := by rw [heq]; simp
    exact (hmeanwhile op hop).2 _
  obtain ⟨e₂, hload, htakes⟩ := loadGame_saveGame htold.built rfl
    (fun _ h => absurd h List.not_mem_nil) hkeeps htold.run hslots
    (ServiceSet.storable_of_isBlank htold.blank).1 htold.fits htold.held htold.saved
    (fun op hop => (hmeanwhile op hop).1) hcalm
  rw [hdepth] at htakes
  exact ⟨e₀, (t.saveGame "a").1, e₂, htold.built, htold.run ▸ htold.saved, hload,
    htold.run ▸ htakes⟩

/-- A run in which the script that plays is replaced by a shorter one of the same revision, which
playback does not notice. -/
def swapScripts : List Operation :=
  [.loadScript "tale" "We\nvRVsv", .playFrom "tale" 0, .input (.tick 0),
    .loadScript "tale" "fOEUSb\n"]

/-- The game that is loaded is over, while the one that was saved stood at a command. -/
theorem loadGame_elsewhere : ∃ e₀ e₁ e₂, build {} {} = .ok e₀ ∧
    (e₀.performAll swapScripts).saveGame "a" = (e₁, .ok ()) ∧
    e₁.loadGame "a" = (e₂, .ok ()) ∧
    (e₀.performAll swapScripts).cursor.spot? = some ⟨"tale", 1⟩ ∧ e₂.cursor.spot? = none := by
  have hrun : ((build {} {}).toOption.any fun e =>
      let t := e.performAll swapScripts
      (t.saveGame "a").2.toOption = some () ∧
        ((t.saveGame "a").1.loadGame "a").2.toOption = some () ∧
        t.cursor.spot? = some ⟨"tale", 1⟩ ∧
        ((t.saveGame "a").1.loadGame "a").1.cursor.spot? = none) = true := by
    decide +kernel
  obtain ⟨e₀, he₀, hcheck⟩ := (Option.any_eq_true _ _).1 hrun
  obtain ⟨hsave, hload, hbefore, hafter⟩ := of_decide_eq_true hcheck
  exact ⟨e₀, _, _, eq_ok_of_toOption he₀, Prod.ext rfl (eq_ok_of_toOption hsave),
    Prod.ext rfl (eq_ok_of_toOption hload), hbefore, hafter⟩

end Engine

end Playhead
