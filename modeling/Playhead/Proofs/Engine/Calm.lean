import Playhead.Proofs.Engine.Arising
import Playhead.Proofs.Motion.Pace

/-!
What operations that do not play on leave: no run forward is begun and no snapshot is captured.

A rewind may run forward, but never beyond its own end.
-/

namespace Playhead

namespace Playback

variable {env : Env} {p q r : Playback}

/-- No run forward is under way. -/
def Calm (p : Playback) : Prop :=
  p.player.fastForward = none

/-- No run forward is begun, and history loses snapshots at most. -/
structure Eases (p q : Playback) : Prop where
  calm : p.Calm → q.Calm
  sheds : ∀ y ∈ q.manager.stack.snapshots, ∃ x ∈ p.manager.stack.snapshots, x.Alike y

theorem Eases.trans (h : Eases p q) (h' : Eases q r) : Eases p r := by
  refine ⟨h'.calm ∘ h.calm, fun z hz => ?_⟩
  obtain ⟨y, hy, hyz⟩ := h'.sheds z hz
  obtain ⟨x, hx, hxy⟩ := h.sheds y hy
  exact ⟨x, hx, hxy.trans hyz⟩

theorem Eases.of_sublist (hc : p.Calm → q.Calm)
    (hs : q.manager.stack.snapshots.Sublist p.manager.stack.snapshots) : Eases p q :=
  ⟨hc, fun y hy => ⟨y, hs.subset hy, .refl y⟩⟩

theorem Eases.of_stack (hc : p.Calm → q.Calm) (hs : q.manager.stack = p.manager.stack) :
    Eases p q :=
  .of_sublist hc (hs ▸ List.Sublist.refl _)

theorem Eases.of_eq (hp : q.player = p.player) (hs : q.manager.stack = p.manager.stack) :
    Eases p q :=
  .of_stack (fun h => (congrArg Player.fastForward hp).trans h) hs

theorem Eases.of_stays (h : Stays p q) : Eases p q :=
  .of_stack (fun hp => (congrArg Backdrop.fastForward h.backdrop).trans hp)
    (congrArg StateManager.stack h.manager)

theorem Eases.refl (p : Playback) : Eases p p :=
  .of_eq rfl rfl

theorem eases_cancelActive (p : Playback) : Eases p p.cancelActive := by
  unfold cancelActive
  split
  · exact .refl p
  · exact .of_stack id rfl

theorem calm_stop (p : Playback) (reason : StopReason) : (p.stop reason).Calm :=
  rfl

theorem eases_stop (p : Playback) (reason : StopReason) : Eases p (p.stop reason) :=
  .of_stack (fun _ => p.calm_stop reason) (congrArg Bearings.stack (p.bearings_stop reason))

theorem eases_start (p : Playback) (d : Document) (i : Nat) : Eases p (p.start d i) := by
  refine .of_stack (fun _ => ?_) (congrArg Bearings.stack (p.bearings_start d i))
  show (p.start d i).player.fastForward = none
  unfold start
  dsimp only
  split <;> rfl

theorem eases_moveTo (p : Playback) (d : Document) (i : Nat) (atEnd : StopReason) :
    Eases p (p.moveTo d i atEnd) := by
  refine .of_stack (fun hp => ?_) (congrArg Bearings.stack (p.bearings_moveTo d i atEnd))
  have h := (Eases.of_stays (.enterScript p d)).calm hp
  show (p.moveTo d i atEnd).player.fastForward = none
  unfold moveTo
  split <;> exact h

theorem calm_settleWaiting (hp : p.Calm) (waiting : Bool) : (p.settleWaiting waiting).Calm := by
  unfold settleWaiting
  split
  · obtain ⟨q, hq, he⟩ := presentChoices_stays p
    rw [he]
    exact (Eases.of_stays hq).calm hp
  · split <;> exact hp

theorem eases_restorePosition (p : Playback) (d : Document) (i played : Nat) (waiting : Bool) :
    Eases p (p.restorePosition d i played waiting) := by
  refine .of_stack (fun _ => ?_)
    (congrArg Bearings.stack (p.bearings_restorePosition d i played waiting))
  unfold restorePosition
  exact calm_settleWaiting (by rfl) waiting

theorem Calm.step (hp : p.Calm) (h : Step env p q) : q.Calm := by
  have hreined : ∀ {q : Playback}, Reined p q → q.Calm := fun h =>
    h.forward.elim (·.trans hp) And.left
  cases h with
  | interrupt hc => exact (eases_cancelActive p).calm hp
  | leave delta => exact (Eases.of_stays (.leaveWait env p delta)).calm hp
  | goOn => exact (Eases.of_stays (.continueInput p)).calm hp
  | reach hb ha =>
    unfold Playback.reach checkForward
    rw [hp]
    split <;> exact hp
  | arrive hrun ha hreach => exact hreined (arrive_reined env ha)
  | work hrun ha delta => exact hreined (stepActive_reined env p _ delta)

theorem Calm.fastForward (hp : p.Calm) (env : Env) (target : Nat) :
    (p.fastForward env target).1.Calm := by
  unfold Playback.fastForward
  split
  · split
    · exact hp
    · split
      · exact hp
      · rfl
  · exact hp

end Playback

namespace Engine

variable {e e' e'' : Engine}

/-- No run forward is under way. -/
def Calm (e : Engine) : Prop :=
  e.playback.Calm

/-- No run forward is begun, and history loses snapshots at most. -/
def Eases (e e' : Engine) : Prop :=
  Playback.Eases e.playback e'.playback

theorem Eases.trans (h : Eases e e') (h' : Eases e' e'') : Eases e e'' :=
  Playback.Eases.trans h h'

theorem Eases.refl (e : Engine) : Eases e e :=
  Playback.Eases.refl e.playback

theorem Eases.of_eq (hp : e'.player = e.player) (hs : e'.stack = e.stack) : Eases e e' :=
  Playback.Eases.of_eq hp hs

theorem eases_emit (e : Engine) (event : Event) : Eases e (e.emit event) :=
  Playback.Eases.of_eq rfl rfl

theorem eases_cancelPlaybackScope (e : Engine) : Eases e e.cancelPlaybackScope :=
  (Playback.eases_cancelActive e.playback).trans (.of_stack id rfl)

theorem eases_withLibrary (e : Engine) (k : ScriptLibrary) : Eases e (e.withLibrary k) :=
  .of_eq rfl rfl

theorem eases_loadDocument (e : Engine) (name : String) : Eases e (e.loadDocument name).1 := by
  obtain ⟨k, hk⟩ := e.loadDocument_withLibrary name
  exact hk ▸ e.eases_withLibrary k

theorem eases_beginPlayback (e : Engine) (d : Document) (i : Nat) :
    Eases e (e.beginPlayback d i) := by
  have hclear : Eases e.cancelPlaybackScope e.cancelPlaybackScope.clearRollback :=
    .of_sublist id (List.nil_sublist _)
  exact ((eases_cancelPlaybackScope e).trans hclear).trans (Playback.eases_start _ d i)

theorem ReadsAhead.eases {u : Engine} (h : e.ReadsAhead u) : Eases e u := by
  induction h with
  | refl => exact .refl e
  | load _ name ih => exact ih.trans (eases_loadDocument _ name)
  | progress _ script loaded total ih => exact ih.trans (eases_emit _ _)
  | fault _ message ih => exact ih.trans (eases_emit _ _)

theorem StartsScript.eases {r : Engine × Except EngineError Unit} (h : e.StartsScript r) :
    Eases e r.1 := by
  cases h with
  | fails h err => exact h.eases
  | @begins script v u d hload h index =>
    have hread := e.eases_loadDocument script
    rw [hload] at hread
    exact (hread.trans h.eases).trans (eases_beginPlayback u d index)

theorem eases_stop (e : Engine) : Eases e e.stop := by
  have hclear : ∀ u : Engine, Eases u u.clearRollback := fun u =>
    .of_sublist id (List.nil_sublist _)
  unfold stop
  split
  · exact .refl e
  · refine ((eases_cancelPlaybackScope e).trans ?_).trans (hclear _)
    split
    · exact .refl _
    · exact Playback.eases_stop _ .requested

theorem Chooses.eases {u : Engine} (h : e.Chooses u) : Eases e u := by
  induction h with
  | refl => exact .refl e
  | read _ k ih => exact ih.trans (eases_withLibrary _ k)
  | fault _ message ih => exact ih.trans (eases_emit _ _)
  | clear _ ih | assign _ v hvars ih | branch _ ih | startBelow _ d ih =>
    exact ih.trans (.of_eq rfl rfl)
  | stop _ reason ih => exact ih.trans (Playback.eases_stop _ reason)

theorem Selects.eases {u : Engine} (h : e.Selects u) : Eases e u := by
  cases h with
  | within h => exact h.eases
  | @jumps u h d next => exact h.eases.trans (Playback.eases_moveTo u.playback d next .endOfScript)
  | @goesOn u h => exact h.eases.trans (.of_stays (.continueInput u.playback))

theorem eases_playTransient (e : Engine) (name text : String) (scope : CancelScope) :
    Eases e (e.playTransient name text scope).1 := by
  unfold playTransient
  split <;> exact .of_eq rfl rfl


theorem eases_restoreSnapshot (e : Engine) (position : Nat) (x : Snapshot) (d : Document) :
    Eases e (e.restoreSnapshot position x d).1 := by
  have hcancel : Eases e (e.emit (.rollbackStarted e.cursor.spot? x.spot)).cancelPlaybackScope :=
    (e.eases_emit _).trans (eases_cancelPlaybackScope _)
  unfold restoreSnapshot
  dsimp only
  generalize (e.emit (.rollbackStarted e.cursor.spot? x.spot)).cancelPlaybackScope = u at hcancel ⊢
  generalize StateManager.restore (u.onPlayback (·.setSynchronizing true)).services x = r
  obtain ⟨s, err | _⟩ := r
  · refine hcancel.trans (Eases.trans ?_ (Playback.eases_stop _ _))
    exact .of_stack id rfl
  · obtain ⟨v, hv⟩ : ∃ v, v = ((u.onPlayback (·.setSynchronizing true)).withServices s).withStack
        (u.stack.truncateAfter position) := ⟨_, rfl⟩
    have hcut : Eases u v := by
      rw [hv]
      exact .of_sublist id (List.take_sublist _ _)
    have hrestore := Playback.eases_restorePosition v.playback d x.spot.index x.played x.waiting
    have hsync : ∀ p : Playback, Playback.Eases p (p.setSynchronizing false) := fun p =>
      .of_stack id rfl
    rw [hv] at hcut hrestore
    exact (hcancel.trans hcut).trans (hrestore.trans (hsync _))

theorem RollsBack.eases {found : Except Unavailable Nat}
    {r : Engine × Except EngineError RollbackOutcome} (h : e.RollsBack found r) : Eases e r.1 := by
  cases h with
  | unavailable k why => exact e.eases_withLibrary k
  | unread hfound hx why => exact .refl e
  | @restore position x k d hfound hx hload hrevision hindex =>
    exact (e.eases_withLibrary k).trans (eases_restoreSnapshot _ position x d)

theorem eases_saveGame (e : Engine) (slot : String) : Eases e (e.saveGame slot).1 := by
  unfold saveGame
  split
  · exact .refl e
  · rename_i record _
    have hstack := saveMap_stack e.playback.manager e.services record e.config.state.savedSteps
    generalize e.playback.manager.saveMap e.services record e.config.state.savedSteps = r
      at hstack ⊢
    obtain ⟨m, err | map⟩ := r <;> exact .of_eq rfl hstack

theorem eases_saveScope (e : Engine) (scope : StateScope) (slot : String) :
    Eases e (e.saveScope scope slot).1 := by
  have hstack := store_stack e.playback.manager e.services scope
  unfold saveScope
  generalize e.playback.manager.store e.services scope = r at hstack ⊢
  obtain ⟨m, err | map⟩ := r <;> exact .of_eq rfl hstack

theorem eases_loadScope (e : Engine) (scope : StateScope) (slot : String) :
    Eases e (e.loadScope scope slot).1 := by
  unfold loadScope
  split
  · exact .refl e
  · exact .refl e
  · rename_i map _
    have hstack := load_stack e.playback.manager e.services scope map
    generalize e.playback.manager.load e.services scope map = r at hstack ⊢
    obtain ⟨m, s, err | _⟩ := r <;> exact .of_eq rfl hstack

theorem eases_replaceScript (e : Engine) (r : Except LibraryError (Document × ScriptLibrary)) :
    Eases e (e.replaceScript r).1 := by
  unfold replaceScript
  split
  · exact .refl e
  · rename_i d k
    have hread : Eases e (e.withLibrary k) := e.eases_withLibrary k
    unfold scriptReplaced
    dsimp only
    split
    · exact (hread.trans (eases_cancelPlaybackScope _)).trans (Playback.eases_stop _ _)
    · exact hread

theorem Calm.playForward (he : e.Calm) (index : Nat) : (e.playForward index).1.Calm :=
  Playback.Calm.fastForward he e.env index

theorem RewindsWithin.calm {u : Engine} (he : e.Calm) (h : e.RewindsWithin u) : u.Calm := by
  cases h with
  | stays => exact he
  | forward index => exact he.playForward index
  | back position => exact (e.rollsBack_position position).eases.calm he
  | backAndForward position index =>
    exact Calm.playForward ((e.rollsBack_position position).eases.calm he) index

theorem calm_restoreCheckpoint (e : Engine) (c : RewindCheckpoint) :
    (e.restoreCheckpoint c).1.Calm := by
  unfold restoreCheckpoint
  dsimp only
  split
  · exact Playback.calm_stop _ _
  · exact (Playback.Eases.of_stays (.setSkip _ _)).calm rfl

theorem Rewinds.calm {u : Engine} (he : e.Calm) (h : e.Rewinds u) : u.Calm := by
  cases h with
  | within h => exact h.calm he
  | undone h hc => exact calm_restoreCheckpoint _ _

theorem Calm.loadGame (he : e.Calm) (slot : String) : (e.loadGame slot).1.Calm := by
  obtain ⟨k, hk⟩ := e.readGame_library slot
  have hcancel := (e.withLibrary k).eases_cancelPlaybackScope.calm he
  unfold Engine.loadGame
  generalize e.readGame slot = r at hk ⊢
  obtain ⟨u, err | ⟨save, record, d⟩⟩ := r
  · rw [show u = _ from hk]
    exact he
  · rw [show u = _ from hk]
    dsimp only
    split
    · exact hcancel
    · exact (Playback.eases_restorePosition _ d record.spot.index record.played
        record.waiting).calm hcancel

end Engine

/-- Whether an operation lets playback play on. -/
def Operation.Plays : Operation → Prop
  | .input (.tick _) | .rewind _ => True
  | _ => False

namespace Engine

variable {e : Engine}

theorem perform_eases (e : Engine) {op : Operation} (hplays : ¬op.Plays) (hloads : ¬op.Loads) :
    Eases e (e.perform op) := by
  cases op with
  | input i =>
    by_cases hselect : i.IsSelect
    · cases i with
      | select index => exact (e.selects index).eases
      | _ => exact hselect.elim
    · refine Playback.Eases.of_stays (take_stays e hselect fun delta hi => ?_).1
      rw [hi] at hplays
      exact hplays trivial
  | playFrom script index => exact (e.startsScript_playFrom script index).eases
  | playStart => exact e.startsScript_playStartScript.eases
  | playLabel script label => exact (e.startsScript_playFromLabel script label).eases
  | preload script => exact (e.startsScript_preloadAndPlay script).eases
  | stop => exact e.eases_stop
  | playTransient name text scope => exact e.eases_playTransient name text scope
  | setDepth depth => exact .of_sublist id (List.drop_sublist _ _)
  | rollback target => exact (e.rollsBack _).eases
  | rollbackWhere p => exact (e.rollsBack _).eases
  | allowRollback allowed => exact ⟨id, fun y hy => RollbackStack.mem_allowNewest hy⟩
  | rewind target => exact absurd trivial hplays
  | save slot | quickSave => exact e.eases_saveGame _
  | load slot | quickLoad => exact absurd trivial hloads
  | saveGlobal | saveSettings => exact e.eases_saveScope _ _
  | loadGlobal | loadSettings => exact e.eases_loadScope _ _
  | loadScript name text | reloadScript name => exact e.eases_replaceScript _
  | _ => exact .of_eq rfl rfl

theorem Calm.perform (he : e.Calm) (hs : Playback.Steps e.env e.playback) (op : Operation) :
    (e.perform op).Calm := by
  by_cases hplays : op.Plays
  · cases op with
    | input i =>
      cases i with
      | tick delta => exact (Playback.tick_path delta hs).keeps (fun _ _ h hp => hp.step h) he
      | _ => exact hplays.elim
    | rewind target => exact (e.rewinds target).calm he
    | _ => exact hplays.elim
  · by_cases hloads : op.Loads
    · cases op with
      | load slot | quickLoad => exact he.loadGame _
      | _ => exact hloads.elim
    · exact (e.perform_eases hplays hloads).calm he

theorem Reachable.steps (h : e.Reachable) : Playback.Steps e.env e.playback :=
  ⟨h.read.registry, h.read.scripts, h.current.toPlaced⟩

/-- A run forward is under way only while it is made, never between two operations. -/
theorem Reachable.calm (h : e.Reachable) : e.Calm := by
  induction h with
  | build h =>
    obtain ⟨registry, services, -, -, -, rfl⟩ := build_eq_ok h
    rfl
  | perform h op ih => exact ih.perform h.steps op
  | supply h resources files ih => exact ih

end Engine

end Playhead
