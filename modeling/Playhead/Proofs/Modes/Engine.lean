import Playhead.Proofs.Engine.Acts
import Playhead.Proofs.Modes.Basic
import Playhead.Proofs.Wings.Strides

/-!
A host that goes by the events alone knows the modes of playback after every call.
-/

namespace Playhead

namespace Engine

open Playback

/-- What an engine told since leads from the modes of before to those of now; auto-play stays. -/
def Tells (e u : Engine) : Prop :=
  e.playback.Tells u.playback

variable {e u v : Engine}

theorem Tells.refl (e : Engine) : Tells e e :=
  Playback.Tells.refl e.playback

theorem Tells.trans (h : Tells e u) (h' : Tells u v) : Tells e v :=
  Playback.Tells.trans h h'

theorem Tells.of_frame (hs : u.playback.scene.newest = e.playback.scene.newest)
    (hp : u.playback.player = e.playback.player) : Tells e u :=
  Playback.Tells.of_frame hs (congrArg (fun p : Player =>
    (⟨p.cursor.skipping, p.cursor.autoPlaying⟩ : Modes)) hp)

theorem tells_emit (e : Engine) {event : Event} (h : event.Silent) : Tells e (e.emit event) :=
  (Mute.emit e.playback h).tells

/-- What transient scripts do beside the services tells of no mode. -/
theorem tells_runs {t : TransientRunner} {s : Scene}
    (h : ∃ l, s.events = e.playback.scene.events ++ l ∧ ∀ event ∈ l, event.isWing = true) :
    Tells e { e with transients := t, playback := { e.playback with scene := s } } := by
  obtain ⟨l, hl, hall⟩ := h
  refine ⟨⟨l, hl, Modes.hearAll_of_silent (fun event hevent => ?_) _⟩, rfl⟩
  have hwing := hall event hevent
  cases event with
  | fault spot message => exact fun _ => rfl
  | transientFinished h status => exact fun _ => rfl
  | _ => cases hwing

theorem tells_reapCancelled (e : Engine) : Tells e e.reapCancelled :=
  tells_runs (e.transients.reapCancelled_told _ _)

theorem tells_turnTransients (e : Engine) (delta : Nanoseconds) :
    Tells e (e.turnTransients delta) :=
  tells_runs (e.transients.tick_told _ _ _ delta _)

theorem tells_cancelPlaybackScope (e : Engine) : Tells e e.cancelPlaybackScope := by
  have hcancel : Tells e (e.onPlayback Playback.cancelActive) :=
    (Hushes.cancelActive e.playback).toMute.tells
  unfold cancelPlaybackScope
  generalize e.onPlayback Playback.cancelActive = u at hcancel ⊢
  dsimp only
  refine ((hcancel.trans (v := u.withScopes (u.playback.scopes.cancel u.player.scope))
    (.of_frame rfl rfl)).trans (tells_reapCancelled _)).trans ?_
  exact Playback.Tells.of_frame rfl rfl

theorem tells_clearRollback (e : Engine) : Tells e e.clearRollback :=
  .of_frame rfl rfl

theorem tells_stopped (e : Engine) (reason : StopReason) :
    Tells e (e.onPlayback (·.stop reason)) :=
  (Mute.stop e.playback reason).tells

theorem tells_restorePosition (e : Engine) (d : Document) (i played : Nat) (waiting : Bool) :
    Tells e (e.onPlayback (·.restorePosition d i played waiting)) :=
  Playback.Tells.restorePosition e.playback d i played waiting

/-- The modes of before are told again, if they were those of a state with the same auto-play. -/
theorem tells_restorePlayer (e : Engine) (c : RewindCheckpoint)
    (h : c.cursor.autoPlaying = e.cursor.autoPlaying) :
    Tells e (e.onPlayback (restorePlayer · c)) := by
  have hcancel := (Hushes.cancelActive e.playback).toMute.tells
  have hauto : c.cursor.autoPlaying = e.playback.cancelActive.cursor.autoPlaying :=
    h.trans hcancel.auto.symm
  show Playback.Tells e.playback (restorePlayer e.playback c)
  unfold restorePlayer
  dsimp only
  generalize e.playback.cancelActive = p at hcancel hauto ⊢
  refine (hcancel.trans ?_).trans (.setSkip _ c.cursor.skipping)
  exact .placed p _ rfl hauto

theorem tells_withLibrary (e : Engine) (k : ScriptLibrary) : Tells e (e.withLibrary k) :=
  .of_frame rfl rfl

theorem tells_loadDocument (e : Engine) (name : String) : Tells e (e.loadDocument name).1 := by
  obtain ⟨k, hk⟩ := e.loadDocument_withLibrary name
  exact hk ▸ tells_withLibrary e k

theorem tells_beginPlayback (e : Engine) (d : Document) (i : Nat) :
    Tells e (e.beginPlayback d i) :=
  ((tells_cancelPlaybackScope e).trans (tells_clearRollback _)).trans
    (Playback.Tells.start _ d i)

theorem tells_fault (e : Engine) (message : String) : Tells e (e.emit (.fault none message)) :=
  tells_emit e fun _ => rfl

theorem ReadsAhead.tells {u : Engine} (h : e.ReadsAhead u) : Tells e u := by
  induction h with
  | refl => exact .refl e
  | load _ name ih => exact ih.trans (tells_loadDocument _ name)
  | progress _ script loaded total ih => exact ih.trans (tells_emit _ fun _ => rfl)
  | fault _ message ih => exact ih.trans (tells_fault _ message)

theorem StartsScript.tells {r : Engine × Except EngineError Unit} (h : e.StartsScript r) :
    Tells e r.1 := by
  cases h with
  | fails h err => exact h.tells
  | @begins script v u d hload h index =>
    have hread := tells_loadDocument e script
    rw [hload] at hread
    exact (hread.trans h.tells).trans (tells_beginPlayback u d index)

theorem tells_stop (e : Engine) : Tells e e.stop := by
  have hcancel := tells_cancelPlaybackScope e
  unfold stop
  split
  · exact .refl e
  · dsimp only
    split
    · exact hcancel.trans (tells_clearRollback _)
    · exact (hcancel.trans (tells_stopped _ .requested)).trans (tells_clearRollback _)

theorem tells_tick (hs : Steps e.env e.playback) (delta : Nanoseconds) :
    Tells e (e.tick delta).1 := by
  have hplays : Tells e { e with playback := (e.playback.tick e.env delta).1 } :=
    (Playback.tick_path delta hs).tells
  exact (hplays.trans (tells_reapCancelled _)).trans (tells_turnTransients _ delta)

theorem tells_playTransient (e : Engine) (name text : String) (scope : CancelScope) :
    Tells e (e.playTransient name text scope).1 := by
  unfold playTransient
  split
  · exact .refl e
  · exact .of_frame rfl rfl

theorem tells_cancelTransients (e : Engine) : Tells e e.cancelTransients := by
  obtain ⟨c, hc⟩ : ∃ c, c = e.transients.runs.foldl (fun c r => c.cancel r.scope)
      e.playback.scopes := ⟨_, rfl⟩
  have hreap : Tells e (e.withScopes c).reapCancelled :=
    Tells.trans (u := e.withScopes c) (.of_frame rfl rfl) (tells_reapCancelled _)
  rw [hc] at hreap
  exact hreap

theorem Chooses.tells (h : e.Chooses u) : Tells e u := by
  induction h with
  | refl => exact .refl e
  | read _ k ih => exact ih.trans (tells_withLibrary _ k)
  | fault _ message ih => exact ih.trans (tells_fault _ message)
  | clear _ ih | assign _ v hvars ih | branch _ ih | startBelow _ d ih =>
    exact ih.trans (.of_frame rfl rfl)
  | stop _ reason ih => exact ih.trans (tells_stopped _ reason)

theorem Selects.tells (h : e.Selects u) : Tells e u := by
  cases h with
  | within h => exact h.tells
  | @jumps u h d next => exact h.tells.trans (Hushes.moveTo u.playback d next _).toMute.tells
  | @goesOn u h => exact h.tells.trans (Hushes.continueInput u.playback).toMute.tells

theorem tells_setSynchronizing (e : Engine) (on : Bool) :
    Tells e (e.onPlayback (·.setSynchronizing on)) :=
  Playback.Tells.of_frame rfl rfl

theorem tells_restoreSnapshot (e : Engine) (position : Nat) (x : Snapshot) (d : Document) :
    Tells e (e.restoreSnapshot position x d).1 := by
  obtain ⟨u, hu⟩ : ∃ u, u = ((e.emit (.rollbackStarted e.cursor.spot? x.spot)).cancelPlaybackScope
      ).onPlayback (·.setSynchronizing true) := ⟨_, rfl⟩
  have hstart : Tells e u := by
    rw [hu]
    exact ((tells_emit e fun _ => rfl).trans (tells_cancelPlaybackScope _)).trans
      (tells_setSynchronizing _ true)
  unfold restoreSnapshot
  dsimp only
  rw [← hu]
  generalize StateManager.restore u.services x = r
  obtain ⟨s, err | _⟩ := r
  · exact ((hstart.trans (v := u.withServices s) (.of_frame rfl rfl)).trans
      (tells_setSynchronizing _ false)).trans (tells_stopped _ _)
  · exact ((hstart.trans (v := (u.withServices s).withStack (u.stack.truncateAfter position))
      (.of_frame rfl rfl)).trans (tells_restorePosition _ d x.spot.index x.played x.waiting)).trans
      (tells_setSynchronizing _ false)

theorem RollsBack.tells {found : Except Unavailable Nat}
    {r : Engine × Except EngineError RollbackOutcome} (h : e.RollsBack found r) : Tells e r.1 := by
  cases h with
  | unavailable k why => exact tells_withLibrary e k
  | unread hfound hx why => exact .refl e
  | @restore position x k d hfound hx hload hrevision hindex =>
    exact (tells_withLibrary e k).trans (tells_restoreSnapshot _ position x d)

theorem tells_playForward (hs : Steps e.env e.playback) (index : Nat) :
    Tells e (e.playForward index).1 :=
  (Mute.fastForward hs index).tells

theorem RewindsWithin.tells (hs : Sited e.env e.playback) (h : e.RewindsWithin u) :
    Tells e u := by
  cases h with
  | stays => exact .refl e
  | forward index => exact tells_playForward hs.toSteps index
  | back position => exact (e.rollsBack_position position).tells
  | backAndForward position index =>
    have hturns := rollbackToPosition_turns (w := .none) ⟨hs.registry, hs.read⟩ position
    exact (e.rollsBack_position position).tells.trans
      (tells_playForward (sited_turns hs hturns).toSteps index)

/-- A rewind that is undone tells the modes of its start again. -/
theorem tells_restoreCheckpoint {c : RewindCheckpoint} (hc : u.rewindCheckpoint = .ok c)
    (h : Tells u e) : Tells e (e.restoreCheckpoint c).1 := by
  have hauto : c.cursor.autoPlaying = e.cursor.autoPlaying := by
    rw [(rewindCheckpoint_eq hc).1]
    exact h.auto.symm
  obtain ⟨v, hv⟩ : ∃ v, v = e.onPlayback (·.setSynchronizing true) := ⟨_, rfl⟩
  have hfirst : Tells e v := hv ▸ tells_setSynchronizing e true
  unfold restoreCheckpoint
  dsimp only
  rw [← hv]
  generalize c.game.apply .game v.services = r
  have hstopped : ∀ s err, Tells e (((v.withServices s).onPlayback (·.setSynchronizing false)
      ).onPlayback (·.stop (.fault (ServiceError.message err)))) := fun s err =>
    ((hfirst.trans (v := v.withServices s) (.of_frame rfl rfl)).trans
      (tells_setSynchronizing _ false)).trans (tells_stopped _ _)
  obtain ⟨s, err | _⟩ := r
  · exact hstopped s err
  · dsimp only
    generalize c.global.apply .global s = r
    obtain ⟨s, err | _⟩ := r
    · exact hstopped s err
    · refine (hfirst.trans (v := (v.withServices s).withStack c.stack) (.of_frame rfl rfl)).trans
        (tells_restorePlayer _ c ?_)
      rw [hv]
      exact hauto

theorem Rewinds.tells (hs : Sited e.env e.playback) (h : e.Rewinds u) : Tells e u := by
  cases h with
  | within h => exact h.tells hs
  | undone h hc => exact (h.tells hs).trans (tells_restoreCheckpoint hc (h.tells hs))

theorem tells_saveGame (e : Engine) (slot : String) : Tells e (e.saveGame slot).1 := by
  unfold saveGame
  split
  · exact .refl e
  · split <;> exact .of_frame rfl rfl

theorem tells_saveScope (e : Engine) (scope : StateScope) (slot : String) :
    Tells e (e.saveScope scope slot).1 := by
  unfold saveScope
  split <;> exact .of_frame rfl rfl

theorem tells_loadScope (e : Engine) (scope : StateScope) (slot : String) :
    Tells e (e.loadScope scope slot).1 := by
  unfold loadScope
  split
  · exact .refl e
  · exact .refl e
  · split <;> exact .of_frame rfl rfl

theorem tells_loadGame (e : Engine) (slot : String) : Tells e (e.loadGame slot).1 := by
  obtain ⟨k, hk⟩ := e.readGame_library slot
  unfold loadGame
  generalize e.readGame slot = r at hk ⊢
  obtain ⟨u, err | ⟨save, record, d⟩⟩ := r
  · rw [show u = _ from hk]
    exact .of_frame rfl rfl
  · have hcancel : Tells e u.cancelPlaybackScope := by
      rw [show u = _ from hk]
      exact (tells_withLibrary e k).trans (tells_cancelPlaybackScope _)
    dsimp only
    generalize u.cancelPlaybackScope = v at hcancel ⊢
    generalize v.playback.manager.load v.services .game save.records = r
    obtain ⟨m, s, err | _⟩ := r
    · exact hcancel.trans (.of_frame rfl rfl)
    · exact (hcancel.trans (v := ((v.withManager m).withServices s).withStack _)
        (.of_frame rfl rfl)).trans (tells_restorePosition _ d _ _ _)

theorem tells_replaceScript (e : Engine) (r : Except LibraryError (Document × ScriptLibrary)) :
    Tells e (e.replaceScript r).1 := by
  unfold replaceScript
  split
  · exact .refl e
  · rename_i d k
    have hread : Tells e (e.withLibrary k) := tells_withLibrary e k
    unfold scriptReplaced
    dsimp only
    split
    · exact (hread.trans (tells_cancelPlaybackScope _)).trans (tells_stopped _ .scriptReloaded)
    · exact hread

theorem tells_setAutoPlay (p : Playback) (on : Bool) :
    ∃ l, (p.setAutoPlay on).scene.events = p.scene.events ++ l ∧
      p.modes.hearAll l = (p.setAutoPlay on).modes := by
  unfold Playback.setAutoPlay
  split
  · exact ⟨[], (List.append_nil _).symm, rfl⟩
  · exact ⟨[.autoPlayChanged on], Scene.events_emit _ _, rfl⟩

/-- The events that an operation hands over to the host. -/
def handed (e : Engine) : Operation → List Event
  | .drain => e.drainEvents.1
  | _ => []

/-- What an operation that hands over nothing adds to the events that are pending. -/
theorem Tells.drained (h : Tells e u) :
    ∃ l, [] ++ u.drainEvents.1 = e.drainEvents.1 ++ l ∧
      e.playback.modes.hearAll l = u.playback.modes :=
  h.told

/-- An operation hands over all events that are pending or none, adds its own, and loses none. Its
own lead from the modes of before to those of after. -/
theorem perform_tells (hs : Sited e.env e.playback) (op : Operation) :
    ∃ l, e.handed op ++ (e.perform op).drainEvents.1 = e.drainEvents.1 ++ l ∧
      e.playback.modes.hearAll l = (e.perform op).playback.modes := by
  cases op with
  | input i =>
    cases i with
    | tick delta => exact (tells_tick hs.toSteps delta).drained
    | goOn => exact (Hushes.continueInput e.playback).toMute.tells.told
    | cancel =>
      obtain ⟨l, hl, hskip⟩ := (Playback.Tells.setSkip e.playback false).told
      obtain ⟨k, hk, hauto⟩ := tells_setAutoPlay (e.playback.setSkip false) false
      refine ⟨l ++ k, ?_, ?_⟩
      · rw [← List.append_assoc]
        exact hk.trans (congrArg (· ++ k) hl)
      · rw [Modes.hearAll_append, hskip]
        exact hauto
    | skip on => exact (Playback.Tells.setSkip e.playback on).told
    | auto on => exact tells_setAutoPlay e.playback on
    | resume =>
      refine (Playback.Tells.placed e.playback e.player.resume.1 ?_ ?_).told <;>
      · unfold Player.resume
        split <;> rfl
    | select index => exact (e.selects index).tells.drained
  | playFrom script index => exact (e.startsScript_playFrom script index).tells.drained
  | playStart => exact e.startsScript_playStartScript.tells.drained
  | playLabel script label => exact (e.startsScript_playFromLabel script label).tells.drained
  | preload script => exact (e.startsScript_preloadAndPlay script).tells.drained
  | stop => exact (tells_stop e).drained
  | playTransient name text scope => exact (tells_playTransient e name text scope).drained
  | cancelTransients => exact (tells_cancelTransients e).drained
  | setDepth depth =>
    refine ⟨(e.stack.setDepth depth).2.map fun x => .snapshotEvicted x.played, ?_, ?_⟩
    · show List.reverse (_ ++ _) = List.reverse _ ++ _
      rw [List.reverse_append, List.reverse_reverse]
      rfl
    · refine Modes.hearAll_of_silent (fun event hevent => ?_) _
      obtain ⟨x, -, rfl⟩ := List.mem_map.1 hevent
      exact fun _ => rfl
  | rollback target => exact (e.rollsBack _).tells.drained
  | rollbackWhere p => exact (e.rollsBack _).tells.drained
  | rewind target => exact ((e.rewinds target).tells hs).drained
  | save slot => exact (tells_saveGame e slot).drained
  | load slot => exact (tells_loadGame e slot).drained
  | quickSave => exact (tells_saveGame e _).drained
  | quickLoad => exact (tells_loadGame e _).drained
  | saveGlobal => exact (tells_saveScope e .global globalSlot).drained
  | loadGlobal => exact (tells_loadScope e .global globalSlot).drained
  | saveSettings => exact (tells_saveScope e .settings settingsSlot).drained
  | loadSettings => exact (tells_loadScope e .settings settingsSlot).drained
  | loadScript name text => exact (tells_replaceScript e _).drained
  | reloadScript name => exact (tells_replaceScript e _).drained
  | drain => exact ⟨[], rfl, rfl⟩
  | _ => exact (Tells.of_frame (e := e) rfl rfl).drained

/-- The states that can come about, with the events that were handed over on the way. -/
inductive Drained : Engine → List Event → Prop where
  | build {config : Config} {parts : EngineParts} {e : Engine} (h : build config parts = .ok e) :
      Drained e []
  | perform {e : Engine} {l : List Event} (h : Drained e l) (op : Operation) :
      Drained (e.perform op) (l ++ e.handed op)
  | supply {e : Engine} {l : List Event} (h : Drained e l) (resources : Resources)
      (files : FileTree) : Drained (e.supply resources files) l

variable {l : List Event}

theorem Drained.reachable (h : Drained e l) : e.Reachable := by
  induction h with
  | build h => exact .build h
  | perform h op ih => exact ih.perform op
  | supply h resources files ih => exact ih.supply resources files

theorem Drained.performAll (h : Drained e l) (ops : List Operation) :
    ∃ k, Drained (e.performAll ops) k := by
  induction ops generalizing e l with
  | nil => exact ⟨l, h⟩
  | cons op rest ih => exact ih (h.perform op)

theorem Drained.hearAll_eq (h : Drained e l) :
    Modes.off.hearAll (l ++ e.drainEvents.1) = e.playback.modes := by
  induction h with
  | build h =>
    unfold Engine.build at h
    obtain ⟨_, -, h⟩ := exists_of_bind_ok h
    obtain ⟨_, -, h⟩ := exists_of_bind_ok h
    obtain ⟨_, -, h⟩ := exists_of_bind_ok h
    cases h
    rfl
  | @perform e l h op ih =>
    obtain ⟨k, hk, hmodes⟩ := perform_tells h.reachable.sited op
    rw [List.append_assoc, hk, ← List.append_assoc, Modes.hearAll_append, ih, hmodes]
  | supply h resources files ih => exact ih

/-- The events told since the engine was built lead from both modes being off to the modes the
cursor has, and those of each further operation lead on to the modes after it. -/
theorem Drained.modes_told (h : Drained e l) :
    Modes.off.hearAll (l ++ e.drainEvents.1) = ⟨e.cursor.skipping, e.cursor.autoPlaying⟩ ∧
      ∀ op, ∃ k, e.handed op ++ (e.perform op).drainEvents.1 = e.drainEvents.1 ++ k ∧
        Modes.hearAll ⟨e.cursor.skipping, e.cursor.autoPlaying⟩ k =
          ⟨(e.perform op).cursor.skipping, (e.perform op).cursor.autoPlaying⟩ :=
  ⟨h.hearAll_eq, perform_tells h.reachable.sited⟩

/-- A way past a branch that is not taken, and a rewind into that branch, while both modes are on. -/
def detour : List Operation :=
  [.loadScript "road" "first\n@if false\nsecond\n@endif\nthird\nfourth\n", .playFrom "road" 0,
    .input (.tick 0), .input .goOn, .input (.tick 0), .input (.skip true), .input (.auto true),
    .drain, .rewind (.line 3)]

/-- The rewind goes back, where skipping ends, misses its target and is undone. -/
theorem modes_detour : ∃ e l, Drained e l ∧ .skipChanged false ∈ e.drainEvents.1 ∧
    Modes.off.hearAll (l ++ e.drainEvents.1) = ⟨true, true⟩ := by
  have hrun : ((build {} {}).toOption.any fun e =>
      .skipChanged false ∈ (e.performAll detour).drainEvents.1 ∧
        (e.performAll detour).playback.modes = ⟨true, true⟩) = true := by
    decide +kernel
  obtain ⟨e₀, he₀, hrun⟩ := (Option.any_eq_true _ _).1 hrun
  obtain ⟨hfalse, hmodes⟩ := of_decide_eq_true hrun
  obtain ⟨l, hdrained⟩ := (Drained.build (eq_ok_of_toOption he₀)).performAll detour
  exact ⟨_, l, hdrained, hfalse, hdrained.modes_told.1.trans hmodes⟩

end Engine

end Playhead
