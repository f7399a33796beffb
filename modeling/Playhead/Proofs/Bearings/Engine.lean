import Playhead.Engine.Choice
import Playhead.Engine.Rewind
import Playhead.Engine.Saving
import Playhead.Proofs.Bearings.Tick
import Playhead.Proofs.Engine.Outcomes

/-!
The turns of the operations of an engine.
-/

namespace Playhead

theorem RollbackStack.newest?_truncateAfter {s : RollbackStack} {position : Nat} {x : Snapshot}
    (h : s.get? position = some x) : (s.truncateAfter position).newest? = some x := by
  unfold get? at h
  obtain ⟨hlt, rfl⟩ := List.getElem?_eq_some_iff.1 h
  unfold newest? truncateAfter
  rw [List.getLast?_take, if_neg (Nat.succ_ne_zero position), Nat.add_sub_cancel,
    List.getElem?_eq_getElem hlt]
  rfl

namespace Engine

def bearings (e : Engine) : Bearings :=
  e.playback.bearings

/-- The scripts that an engine holds are as they were read with its registry. -/
structure Read (e : Engine) : Prop where
  registry : e.registry.Sound
  scripts : e.bearings.Read e.registry

/-- An engine gets from one state to another by turns. -/
structure Turns (w : Leeway) (e e' : Engine) : Prop where
  turns : Bearings.Turns e.registry w e.bearings e'.bearings
  registry : e'.registry = e.registry

variable {w : Leeway} {e e' e'' : Engine}

theorem Turns.refl (e : Engine) : Turns w e e :=
  ⟨Relation.ReflTransGen.refl, rfl⟩

theorem Turns.trans (h : Turns w e e') (h' : Turns w e' e'') : Turns w e e'' :=
  ⟨h.turns.trans (h.registry ▸ h'.turns), h'.registry.trans h.registry⟩

theorem Turns.of_eq (h : e'.bearings = e.bearings) (hr : e'.registry = e.registry) :
    Turns w e e' := by
  refine ⟨?_, hr⟩
  rw [h]
  exact Relation.ReflTransGen.refl

theorem Turns.one (h : Bearings.Turn e.registry w e.bearings e'.bearings)
    (hr : e'.registry = e.registry) : Turns w e e' :=
  ⟨.one h, hr⟩

theorem Turns.of_playback {p : Playback} (h : Playback.Turns e.env w e.playback p) :
    Turns w e { e with playback := p } :=
  ⟨h, rfl⟩

theorem Read.turns (he : e.Read) (h : Turns w e e') : e'.Read := by
  refine ⟨?_, ?_⟩
  · rw [h.registry]
    exact he.registry
  · rw [h.registry]
    exact he.scripts.turns h.turns

theorem reapCancelled_turns (e : Engine) : Turns w e e.reapCancelled :=
  .of_eq rfl rfl

theorem bearings_cancelPlaybackScope (e : Engine) :
    e.cancelPlaybackScope.bearings = { e.bearings with active := none } :=
  e.playback.bearings_cancelActive

theorem cancelPlaybackScope_turns (e : Engine) : Turns w e e.cancelPlaybackScope := by
  refine .one ?_ rfl
  rw [bearings_cancelPlaybackScope]
  exact .drop

theorem stop_turns (e : Engine) (reason : StopReason) :
    Turns w e (e.onPlayback (·.stop reason)) :=
  .of_playback (Playback.rests_stop e.playback reason).turns

theorem clearRollback_turns (e : Engine) : Turns w e e.clearRollback :=
  .one (.clear (b := e.bearings)) rfl

/-- Looking a script up reads it at most; then it is held. -/
theorem loadDocument_turns (he : e.Read) (name : String) :
    Turns w e (e.loadDocument name).1 ∧ ∀ d, (e.loadDocument name).2 = .ok d →
      (e.loadDocument name).1.library.get? d.name = some d := by
  unfold loadDocument
  cases h : e.library.load e.source name with
  | ok r =>
    obtain ⟨d, k⟩ := r
    have hl : e.library.Sound e.source.registry := he.scripts.library
    obtain ⟨hk, hname, hget⟩ := hl.load_reads he.registry h
    refine ⟨.one (.read (b := e.bearings) hk) rfl, fun d' h' => ?_⟩
    cases h'
    exact hname.symm ▸ hget
  | error err => exact ⟨.refl e, fun d' h' => by cases h'⟩

/-- Starting a script that is held. -/
theorem beginPlayback_turns {d : Document} (hd : e.library.get? d.name = some d) (index : Nat) :
    Turns w e (e.beginPlayback d index) := by
  have hclear : Turns w e e.cancelPlaybackScope.clearRollback :=
    (cancelPlaybackScope_turns e).trans (clearRollback_turns _)
  refine hclear.trans (.one ?_ rfl)
  have h := e.cancelPlaybackScope.clearRollback.playback.bearings_start d index
  have hb : e.cancelPlaybackScope.clearRollback.bearings =
      { e.bearings with active := none, stack := e.stack.clear } :=
    congrArg (fun b : Bearings => { b with stack := b.stack.clear })
      e.bearings_cancelPlaybackScope
  have hnone : e.cancelPlaybackScope.clearRollback.bearings.active = none := by rw [hb]
  have hsame : ({ e.cancelPlaybackScope.clearRollback.bearings with active := none } : Bearings) =
      e.cancelPlaybackScope.clearRollback.bearings := by rw [hb]
  have hend : (e.beginPlayback d index).bearings =
      { e.cancelPlaybackScope.clearRollback.bearings.moveTo d index with played := 0 } := by
    rw [← hsame]
    exact h
  rw [hend]
  refine .restart ?_ index hnone rfl
  rw [hb]
  exact hd

theorem ReadsAhead.turns {u : Engine} (he : e.Read) (h : e.ReadsAhead u) : Turns w e u := by
  induction h with
  | refl => exact .refl e
  | load _ name ih => exact ih.trans (loadDocument_turns (he.turns ih) name).1
  | progress _ script loaded total ih => exact ih.trans (.of_eq rfl rfl)
  | fault _ message ih => exact ih.trans (.of_eq rfl rfl)

theorem StartsScript.turns {r : Engine × Except EngineError Unit} (he : e.Read)
    (h : e.StartsScript r) : Turns w e r.1 := by
  cases h with
  | fails h err => exact h.turns he
  | @begins script v u d hload h index =>
    have hread := loadDocument_turns (w := w) he script
    rw [hload] at hread
    obtain ⟨hv, hget⟩ := hread
    have hheld : u.library.get? d.name = some d :=
      (h.turns (w := .none) (he.turns hv)).turns.held id (hget d rfl)
    exact (hv.trans (h.turns (he.turns hv))).trans (beginPlayback_turns hheld index)

/-- Stopping playback. -/
theorem stopped_turns (e : Engine) : Turns w e e.stop := by
  unfold Engine.stop
  split
  · exact .refl e
  · refine ((cancelPlaybackScope_turns e).trans ?_).trans (clearRollback_turns _)
    split
    · exact .refl _
    · exact stop_turns _ _

theorem tick_turns (he : e.Read) (delta : Nanoseconds) : Turns w e (e.tick delta).1 := by
  have h : Turns w e { e with playback := (e.playback.tick e.env delta).1 } :=
    .of_playback (Playback.tick_turns he.registry he.scripts delta)
  exact h.trans ((reapCancelled_turns _).trans (.of_eq rfl rfl))

theorem resume_turns (e : Engine) : Turns w e e.resume.1 := by
  refine .of_eq ?_ rfl
  show ({ e.playback with player := e.player.resume.1 } : Playback).bearings = _
  unfold Player.resume
  split <;> rfl

/-- A transient script is none of the bearings. -/
theorem playTransient_eq (e : Engine) (name text : String) (scope : CancelScope) :
    (e.playTransient name text scope).1.bearings = e.bearings ∧
      (e.playTransient name text scope).1.registry = e.registry := by
  unfold playTransient
  split <;> exact ⟨rfl, rfl⟩

theorem choiceDestination_turns (he : e.Read) (index : Nat) (goto : Option String) :
    Turns w e (e.choiceDestination index goto).1 ∧
      ∀ d next, (e.choiceDestination index goto).2 = .ok (some (d, next)) →
        (e.choiceDestination index goto).1.bearings.Holds d ∧
          (e.choiceDestination index goto).1.player.active = e.player.active ∧
          (e.choiceDestination index goto).1.cursor = e.cursor := by
  have hstop : ∀ (p : Playback) (err : JumpError), Playback.Turns e.env w e.playback p →
      Playback.Turns e.env w e.playback ((p.withServices
        { p.services with choices := p.services.choices.map fun _ => .empty }).stop
          (.fault err.message)) := by
    intro p err hp
    have hempty : Playback.Turns e.env w p (p.withServices
        { p.services with choices := p.services.choices.map fun _ => .empty }) := .of_eq rfl
    exact (hp.trans hempty).trans (Playback.rests_stop _ _).turns
  unfold choiceDestination
  cases goto with
  | none => exact ⟨.refl e, fun d next h => by cases h⟩
  | some text =>
    dsimp only
    cases JumpTarget.parse? text with
    | none => exact ⟨.of_eq rfl rfl, fun d next h => by cases h⟩
    | some target =>
      dsimp only
      cases hd : e.playback.player.document with
      | none =>
        have hresolve : e.playback.resolveJump e.env target =
            (e.playback, .error .notPlaying) := by
          unfold Playback.resolveJump
          rw [hd]
        rw [hresolve]
        exact ⟨.of_playback (hstop _ _ (.refl _)), fun d next h => by cases h⟩
      | some d =>
        have hlooks : Playback.Looks e.env e.playback (e.playback.resolveJump e.env target).1 d
            (e.playback.resolveJump e.env target).2 :=
          Playback.resolveJump_looks he.registry he.scripts hd target
        generalize e.playback.resolveJump e.env target = r at hlooks ⊢
        obtain ⟨p, err | ⟨d', next⟩⟩ := r
        · exact ⟨.of_playback (hstop _ _ hlooks.turns), fun d next h => by cases h⟩
        · refine ⟨.of_playback hlooks.turns, fun d'' next' h => ?_⟩
          cases h
          obtain ⟨arrived, hplayer⟩ := hlooks.player
          exact ⟨Playback.Looks.holds hlooks hd, (congrArg Player.active hplayer).trans rfl,
            (congrArg Player.cursor hplayer).trans rfl⟩

theorem applyChoiceSet_eq (e : Engine) (o : ChoiceOption) :
    (e.applyChoiceSet o).bearings = e.bearings ∧ (e.applyChoiceSet o).registry = e.registry := by
  unfold applyChoiceSet
  split
  · exact ⟨rfl, rfl⟩
  · dsimp only
    split <;> exact ⟨rfl, rfl⟩

theorem startChoiceScript_eq (e : Engine) (o : ChoiceOption) :
    (e.startChoiceScript o).1.bearings = e.bearings ∧
      (e.startChoiceScript o).1.registry = e.registry := by
  unfold startChoiceScript
  split
  · exact ⟨rfl, rfl⟩
  · rename_i text _
    have hplay := playTransient_eq (e.withScopes (e.playback.scopes.child e.player.scope).2)
      "choice" text (e.playback.scopes.child e.player.scope).1
    dsimp only
    generalize playTransient (e.withScopes (e.playback.scopes.child e.player.scope).2) "choice"
      text (e.playback.scopes.child e.player.scope).1 = r at hplay ⊢
    obtain ⟨e', err | handle⟩ := r <;> exact hplay

/-- A selection takes the turns of the player. One that leads elsewhere may move the cursor away
from a command in flight. -/
theorem selectChoice_turns (he : e.Read) (index : Nat)
    (hv : ∀ o, e.services.pendingChoices[index]? = some o → o.goto ≠ none →
      e.player.active = none ∨ w.veers) : Turns w e (e.selectChoice index).1 := by
  unfold selectChoice
  split
  · exact .refl e
  · rename_i hrunning
    have hrunning : e.player.isRunning = true := by simpa using hrunning
    have hi : e.cursor.index ≠ none := Playback.index_of_isRunning hrunning
    cases ho : e.services.pendingChoices[index]? with
    | none => exact .refl e
    | some o =>
      obtain ⟨hturns, hholds⟩ := choiceDestination_turns (w := w) he index o.goto
      have hstays : o.goto = none → (e.choiceDestination index o.goto).2 = .ok none := by
        intro hgoto
        rw [hgoto]
        rfl
      dsimp only
      generalize e.choiceDestination index o.goto = r at hturns hholds hstays ⊢
      obtain ⟨e', err | destination⟩ := r
      · exact hturns
      · dsimp only at hturns hholds ⊢
        obtain ⟨u, hu⟩ : ∃ u, u = e'.withServices
            { e'.services with choices := e'.services.choices.map fun _ => .empty } := ⟨_, rfl⟩
        have hscript := startChoiceScript_eq (u.applyChoiceSet o) o
        rw [(applyChoiceSet_eq u o).1, (applyChoiceSet_eq u o).2] at hscript
        rw [← hu]
        generalize (u.applyChoiceSet o).startChoiceScript o = r at hscript ⊢
        obtain ⟨v, result⟩ := r
        have hb : v.bearings = e'.bearings := hscript.1.trans (by rw [hu]; rfl)
        have hr : v.registry = e'.registry := hscript.2.trans (by rw [hu]; rfl)
        have hend : Turns w e v := hturns.trans (.of_eq hb hr)
        cases result with
        | error err => exact hend
        | ok _ =>
          dsimp only
          cases hdest : destination with
          | none =>
            refine hend.trans (.of_eq ?_ rfl)
            exact v.playback.bearings_continueInput
          | some place =>
            obtain ⟨d, next⟩ := place
            obtain ⟨hd, ha, hcursor⟩ := hholds d next (by rw [hdest])
            refine hend.trans (.one ?_ rfl)
            have hmove : (v.onPlayback (·.moveTo d next .endOfScript)).bearings =
                v.bearings.moveTo d next := v.playback.bearings_moveTo d next .endOfScript
            rw [hmove]
            have hgoto : o.goto ≠ none := by
              intro hgoto
              have hnone := hstays hgoto
              rw [hdest] at hnone
              cases hnone
            refine .move (hb ▸ hd) next ?_ ((hv o ho hgoto).imp_left fun hnone => ?_)
            · rw [hb]
              show e'.cursor.index ≠ none
              rw [hcursor]
              exact hi
            · rw [hb]
              exact ha.trans hnone

/-- Taking a position up with no command in flight. -/
theorem bearings_restorePosition (hidle : e.bearings.active = none) (d : Document)
    (i played : Nat) (waiting : Bool) :
    (e.onPlayback (·.restorePosition d i played waiting)).bearings =
      { e.bearings.moveTo d i with played := played } := by
  have h := e.playback.bearings_restorePosition d i played waiting
  rw [show ({ e.playback.bearings with active := none } : Bearings) = e.bearings from
    Bearings.eq_of_idle hidle] at h
  exact h

/-- Putting a snapshot back drops what is in flight and goes back to the snapshot. -/
theorem restoreSnapshot_turns {position : Nat} {x : Snapshot} {d : Document}
    (hx : e.stack.get? position = some x) (hd : e.library.get? d.name = some d) :
    Turns w e (e.restoreSnapshot position x d).1 := by
  unfold restoreSnapshot
  obtain ⟨u, hu⟩ : ∃ u, u = ((e.emit (.rollbackStarted e.cursor.spot? x.spot)).cancelPlaybackScope
      ).onPlayback (·.setSynchronizing true) := ⟨_, rfl⟩
  have hub : u.bearings = { e.bearings with active := none } := by
    rw [hu]
    exact (e.emit (.rollbackStarted e.cursor.spot? x.spot)).bearings_cancelPlaybackScope
  have hdrop : Turns w e u := by
    refine .one ?_ (by rw [hu]; rfl)
    rw [hub]
    exact .drop
  dsimp only
  rw [← hu]
  generalize StateManager.restore u.services x = r
  obtain ⟨s, err | _⟩ := r
  · have hsync : Turns w u ((u.withServices s).onPlayback (·.setSynchronizing false)) :=
      .of_eq rfl rfl
    exact (hdrop.trans hsync).trans (stop_turns _ _)
  · obtain ⟨v, hv⟩ : ∃ v, v = (u.withServices s).withStack
        (u.stack.truncateAfter position) := ⟨_, rfl⟩
    have hvb : v.bearings =
        { u.bearings with stack := u.bearings.stack.truncateAfter position } := by
      rw [hv]
      rfl
    have hcut : Turns w u v := by
      refine .one ?_ (by rw [hv]; rfl)
      rw [hvb]
      exact .cut position
    have hidle : v.bearings.active = none := by rw [hvb, hub]
    have hrecall : Turns w v
        (v.onPlayback (·.restorePosition d x.spot.index x.played x.waiting)) := by
      refine .one ?_ rfl
      rw [bearings_restorePosition hidle]
      refine .goBack ?_ hidle ?_
      · rw [hvb, hub]
        exact hd
      · rw [hvb, hub]
        exact RollbackStack.newest?_truncateAfter hx
    dsimp only
    rw [← hv]
    exact (hdrop.trans hcut).trans (hrecall.trans (.of_eq rfl rfl))

theorem rollbackToPosition_turns (he : e.Read) (position : Nat) :
    Turns w e (e.rollbackToPosition position).1 := by
  unfold rollbackToPosition
  cases hx : e.stack.get? position with
  | none => exact .refl e
  | some x =>
    have hload := fun w => loadDocument_turns (w := w) he x.spot.script
    have hstack : (e.loadDocument x.spot.script).1.stack = e.stack := by
      unfold loadDocument
      split <;> rfl
    dsimp only
    generalize e.loadDocument x.spot.script = r at hload hstack ⊢
    obtain ⟨e', err | d⟩ := r
    · exact (hload w).1
    · dsimp only at hstack ⊢
      split
      · exact (hload w).1
      · exact (hload w).1.trans
          (restoreSnapshot_turns (hstack.symm ▸ hx) ((hload w).2 d rfl))

theorem rollbackTo_turns (he : e.Read) (found : Except Unavailable Nat) :
    Turns w e (e.rollbackTo found).1 := by
  unfold rollbackTo
  split
  · exact .refl e
  · split
    · exact rollbackToPosition_turns he _
    · exact .refl e

theorem playForward_turns (he : e.Read) (index : Nat) : Turns w e (e.playForward index).1 :=
  .of_playback (Playback.fastForward_turns he.registry he.scripts index)

theorem RewindsWithin.turns {u : Engine} (he : e.Read) (h : e.RewindsWithin u) : Turns w e u := by
  cases h with
  | stays => exact .refl e
  | forward index => exact playForward_turns he index
  | back position => exact rollbackToPosition_turns he position
  | backAndForward position index =>
    have hback := rollbackToPosition_turns (w := w) he position
    exact hback.trans (playForward_turns (he.turns hback) index)

theorem rewindWithin_turns (he : e.Read) (d : Document) (current index : Nat) :
    Turns w e (e.rewindWithin d current index).1 :=
  (e.rewindsWithin d current index).turns he

theorem bearings_restorePlayer (p : Playback) (c : RewindCheckpoint) :
    (restorePlayer p c).bearings = ⟨c.document, c.cursor.script, c.cursor.revision,
      c.cursor.index, c.cursor.played, none, p.manager.stack, p.library⟩ := by
  have hcancel := p.bearings_cancelActive
  unfold restorePlayer
  dsimp only
  rw [Playback.bearings_setSkip]
  exact congrArg (fun b : Bearings => ({ b with
    document := c.document
    script := c.cursor.script
    revision := c.cursor.revision
    index := c.cursor.index
    played := c.cursor.played } : Bearings)) hcancel

/-- Undoing a rewind puts everything back but the command in flight and the scripts that were
read. -/
theorem restoreCheckpoint_bearings {c : RewindCheckpoint}
    (h : e.restoreCheckpoint c = (e', .ok ())) :
    e'.bearings = ⟨c.document, c.cursor.script, c.cursor.revision, c.cursor.index, c.cursor.played,
      none, c.stack, e.library⟩ ∧ e'.registry = e.registry := by
  unfold restoreCheckpoint at h
  dsimp only at h
  split at h
  · cases h
  · cases h
    exact ⟨bearings_restorePlayer _ c, rfl⟩

theorem restoreCheckpoint_turns {c : RewindCheckpoint} {err : EngineError}
    (h : e.restoreCheckpoint c = (e', .error err)) : Turns w e e' := by
  unfold restoreCheckpoint at h
  dsimp only at h
  split at h
  · cases h
    refine Turns.trans ?_ (stop_turns _ _)
    exact .of_eq rfl rfl
  · cases h

theorem rewindCheckpoint_eq {c : RewindCheckpoint} (h : e.rewindCheckpoint = .ok c) :
    c.cursor = e.cursor ∧ c.document = e.player.document ∧ c.stack = e.stack := by
  unfold rewindCheckpoint at h
  obtain ⟨game, -, h⟩ := exists_of_bind_ok h
  obtain ⟨global, -, h⟩ := exists_of_bind_ok h
  cases h
  exact ⟨rfl, rfl, rfl⟩

/-- A rewind that misses its target and is undone drops what is in flight and may have read
scripts. -/
theorem Rewinds.turns {v : Engine} (he : e.Read) (h : e.Rewinds v) : Turns w e v := by
  cases h with
  | within h => exact h.turns he
  | @undone u c h hc =>
    generalize hrestore : u.restoreCheckpoint c = r
    obtain ⟨v, err | _⟩ := r
    · exact (h.turns he).trans (restoreCheckpoint_turns hrestore)
    · obtain ⟨hb, hr⟩ := restoreCheckpoint_bearings hrestore
      obtain ⟨hcursor, hdocument, hstack⟩ := rewindCheckpoint_eq hc
      have hwithin : Turns .none e u := h.turns he
      have hreads : e.library.Reads e.registry u.library :=
        ⟨hwithin.registry ▸ (he.turns hwithin).scripts.library,
          fun name d hd => hwithin.turns.held id hd, hwithin.turns.added⟩
      refine ⟨?_, hr.trans hwithin.registry⟩
      have hv : v.bearings =
          { ({ e.bearings with active := none } : Bearings) with library := u.library } := by
        rw [hb, hcursor, hdocument, hstack]
        rfl
      have hread := Bearings.Turn.read (w := w)
        (b := ({ e.bearings with active := none } : Bearings)) hreads
      rw [hv]
      exact (Bearings.Turns.one .drop).trans (.one hread)

theorem rewindTo_turns (he : e.Read) (target : RewindTarget) :
    Turns w e (e.rewindTo target).1 :=
  (e.rewinds target).turns he

/-- Keeping a map of a scope changes nothing else. -/
theorem store_stack (m : StateManager) (s : ServiceSet) (scope : StateScope) :
    (m.store s scope).1.stack = m.stack := by
  unfold StateManager.store
  split <;> rfl

theorem saveMap_stack (m : StateManager) (s : ServiceSet) (record : PlaybackRecord) (steps : Nat) :
    (m.saveMap s record steps).1.stack = m.stack := by
  have hstore := store_stack m s .game
  unfold StateManager.saveMap
  generalize m.store s .game = r at hstore ⊢
  obtain ⟨n, err | map⟩ := r
  · exact hstore
  · dsimp only
    split <;> exact hstore

theorem bearings_withManager {m : StateManager} (h : m.stack = e.stack) :
    (e.withManager m).bearings = e.bearings := by
  show ({ e.bearings with stack := m.stack } : Bearings) = e.bearings
  rw [h]
  rfl

theorem saveGame_turns (e : Engine) (slot : String) : Turns w e (e.saveGame slot).1 := by
  unfold saveGame
  cases e.playbackRecord? with
  | none => exact .refl e
  | some record =>
    have hstack := saveMap_stack e.playback.manager e.services record e.config.state.savedSteps
    dsimp only
    generalize e.playback.manager.saveMap e.services record e.config.state.savedSteps = r
      at hstack ⊢
    obtain ⟨m, err | map⟩ := r
    · exact .of_eq (bearings_withManager hstack) rfl
    · exact .of_eq (bearings_withManager hstack) rfl

theorem saveScope_turns (e : Engine) (scope : StateScope) (slot : String) :
    Turns w e (e.saveScope scope slot).1 := by
  have hstack := store_stack e.playback.manager e.services scope
  unfold saveScope
  generalize e.playback.manager.store e.services scope = r at hstack ⊢
  obtain ⟨m, err | map⟩ := r
  · exact .of_eq (bearings_withManager hstack) rfl
  · exact .of_eq (bearings_withManager hstack) rfl

theorem load_stack (m : StateManager) (s : ServiceSet) (scope : StateScope) (map : StateMap) :
    (m.load s scope map).1.stack = m.stack := by
  unfold StateManager.load
  split <;> rfl

theorem loadScope_turns (e : Engine) (scope : StateScope) (slot : String) :
    Turns w e (e.loadScope scope slot).1 := by
  unfold loadScope
  split
  · exact .refl e
  · exact .refl e
  · rename_i map _
    have hstack := load_stack e.playback.manager e.services scope map
    generalize e.playback.manager.load e.services scope map = r at hstack ⊢
    obtain ⟨m, s, err | _⟩ := r
    · exact .of_eq (bearings_withManager hstack) rfl
    · exact .of_eq (bearings_withManager hstack) rfl

/-- What a slot holds, in its parts. -/
def Saved (e : Engine) (slot : String) (save : GameSave) (record : PlaybackRecord) : Prop :=
  ∃ map, e.saves.load e.files .game slot = .ok (some map) ∧ GameSave.ofMap map = .ok save ∧
    save.playback = some record

theorem readGame_turns (he : e.Read) (slot : String) :
    Turns w e (e.readGame slot).1 ∧ ∀ save record d,
      (e.readGame slot).2 = .ok (save, record, d) → e.Saved slot save record ∧
        (e.readGame slot).1.library.get? d.name = some d := by
  unfold readGame
  dsimp only
  split
  · exact ⟨.refl e, fun save record d h => by cases h⟩
  · rename_i save record hread
    have hsaved : e.Saved slot save record := by
      obtain ⟨found, hfound, h⟩ := exists_of_bind_ok hread
      cases found with
      | none => cases h
      | some map =>
        obtain ⟨save', hsave, h⟩ := exists_of_bind_ok h
        refine ⟨map, exists_of_mapError_ok hfound, ?_⟩
        cases hplayback : save'.playback with
        | none =>
          rw [hplayback] at h
          cases h
        | some record' =>
          rw [hplayback] at h
          cases h
          exact ⟨exists_of_mapError_ok hsave, hplayback⟩
    obtain ⟨hload, hget⟩ := loadDocument_turns (w := w) he record.spot.script
    generalize e.loadDocument record.spot.script = r at hload hget ⊢
    obtain ⟨e', err | d⟩ := r
    · exact ⟨hload, fun save record d h => by cases h⟩
    · dsimp only at hload hget ⊢
      split
      · exact ⟨hload, fun save record d h => by cases h⟩
      · refine ⟨hload, fun save' record' d' h => ?_⟩
        cases h
        exact ⟨hsaved, hget d rfl⟩

/-- Loading a game takes up what was saved in the slot, or its position alone. -/
theorem loadGame_turns (he : e.Read) (slot : String)
    (hw : ∀ save record, e.Saved slot save record →
      w.loads save.rollback record.played ∧ w.loads [] record.played) :
    Turns w e (e.loadGame slot).1 := by
  obtain ⟨hread, hfound⟩ := readGame_turns (w := w) he slot
  unfold loadGame
  generalize e.readGame slot = r at hread hfound ⊢
  obtain ⟨u, err | ⟨save, record, d⟩⟩ := r
  · exact hread
  · obtain ⟨hsaved, hget⟩ := hfound save record d rfl
    have hloads := hw save record hsaved
    dsimp only at hread hget ⊢
    obtain ⟨v, hv⟩ : ∃ v, v = u.cancelPlaybackScope := ⟨_, rfl⟩
    have hvb : v.bearings = { u.bearings with active := none } := by
      rw [hv]
      exact u.bearings_cancelPlaybackScope
    have hdrop : Turns w e v := hread.trans (hv ▸ cancelPlaybackScope_turns u)
    have hstack := load_stack v.playback.manager v.services .game save.records
    rw [← hv]
    generalize v.playback.manager.load v.services .game save.records = r at hstack ⊢
    obtain ⟨m, s, err | _⟩ := r
    · exact hdrop.trans (.of_eq (bearings_withManager hstack) rfl)
    · dsimp only at hstack ⊢
      obtain ⟨l, hl, hll⟩ : ∃ l, l = (if d.revision = record.revision then save.rollback else []) ∧
          w.loads l record.played := by
        refine ⟨_, rfl, ?_⟩
        split
        · exact hloads.1
        · exact hloads.2
      rw [← hl]
      obtain ⟨t, ht⟩ : ∃ t, t = ((v.withManager m).withServices s).withStack
          (v.stack.replace l) := ⟨_, rfl⟩
      have htb : t.bearings = { v.bearings with stack := v.stack.replace l } := by
        rw [ht]
        rfl
      have hidle : t.bearings.active = none := by rw [htb, hvb]
      refine hdrop.trans (.one ?_ (by rw [hv]; rfl))
      have hend := bearings_restorePosition hidle d record.spot.index record.played record.waiting
      rw [← ht, hend, htb]
      refine .load ?_ record.spot.index (by rw [hvb]) hll
      rw [hvb]
      exact hget

/-- Reading a script anew. If it is the one that plays and has changed, playback stops. -/
theorem replaceScript_turns (hw : w.rereads) {read : Except LibraryError (Document × ScriptLibrary)}
    (hread : ∀ d k, read = .ok (d, k) → k.Sound e.registry ∧ d.Parsed e.registry ∧
      k.get? d.name = some d ∧ ∀ name, name ≠ d.name → k.get? name = e.library.get? name) :
    Turns w e (e.replaceScript read).1 := by
  unfold replaceScript
  cases read with
  | error err => exact .refl e
  | ok r =>
    obtain ⟨d, k⟩ := r
    obtain ⟨hk, hparsed, hget, hother⟩ := hread d k rfl
    have hheld : ∀ name, e.library.get? name ≠ none → k.get? name ≠ none := by
      intro name hname
      by_cases h : name = d.name
      · rw [h, hget]
        exact Option.some_ne_none d
      · rwa [hother name h]
    have hadded : ∀ name d', k.get? name = some d' →
        e.library.get? name = some d' ∨ d'.Parsed e.registry := by
      intro name d' hd'
      by_cases h : name = d.name
      · rw [h, hget] at hd'
        cases hd'
        exact .inr hparsed
      · exact .inl (hother name h ▸ hd')
    dsimp only
    unfold scriptReplaced
    dsimp only
    split
    · obtain ⟨u, hu⟩ : ∃ u : Engine,
          u = { e with playback := { e.playback with library := k } } := ⟨_, rfl⟩
      have hub : u.bearings = { e.bearings with library := k } := by
        rw [hu]
        rfl
      have hend : (u.cancelPlaybackScope.onPlayback (·.stop .scriptReloaded)).bearings =
          { e.bearings with active := none, index := none, library := k } := by
        have h : (u.cancelPlaybackScope.onPlayback (·.stop .scriptReloaded)).bearings =
            { u.cancelPlaybackScope.bearings with active := none, index := none } :=
          u.cancelPlaybackScope.playback.bearings_stop .scriptReloaded
        rw [h, bearings_cancelPlaybackScope, hub]
      rw [← hu]
      refine ⟨?_, by rw [hu]; rfl⟩
      rw [hend]
      have hstop : Bearings.Turns e.registry w e.bearings
          { e.bearings with active := none, index := none } :=
        (Bearings.Turns.one .drop).trans (.one (.leave rfl))
      exact hstop.trans (.one (.reread (b := { e.bearings with active := none, index := none })
        hw hk hheld hadded (.inr (.inl rfl))))
    · rename_i hcond
      refine .one (.reread (b := e.bearings) hw hk hheld hadded ?_) rfl
      by_cases hdoc : e.bearings.document = none
      · exact .inl hdoc
      by_cases hindex : e.bearings.index = none
      · exact .inr (.inl hindex)
      refine .inr (.inr fun d' hd' => ?_)
      by_cases hname : e.bearings.script = d.name
      · rw [hname, hget] at hd'
        cases hd'
        refine .inr (Classical.byContradiction fun hrev => hcond ?_)
        have hsome : e.player.document.isSome = true := Option.isSome_iff_ne_none.2 hdoc
        have hstopped : e.cursor.isStopped = false := by
          unfold Cursor.isStopped
          exact Option.isNone_eq_false_iff.2 (Option.isSome_iff_ne_none.2 hindex)
        have hscript : e.cursor.script = d.name := hname
        have hrevision : e.cursor.revision ≠ d.revision := fun h => hrev h.symm
        simpa using ⟨⟨⟨hsome, hstopped⟩, hscript⟩, hrevision⟩
      · rw [hother _ hname] at hd'
        exact .inl hd'

end Engine

end Playhead
