import Playhead.Engine.Play

/-!
Rolling back to a retained snapshot.
-/

namespace Playhead

inductive RollbackOutcome where
  | completed (target : Spot)
  /-- Nothing has changed. -/
  | unavailable (why : Unavailable)
deriving DecidableEq, Repr

def RollbackOutcome.isCompleted : RollbackOutcome → Bool
  | .completed _ => true
  | .unavailable _ => false

namespace Engine

/-- Puts a snapshot's state and position back. Its script is read already and is the one the
snapshot was taken in. If the state is refused, playback stops. -/
def restoreSnapshot (e : Engine) (position : Nat) (x : Snapshot) (d : Document) :
    Engine × Except EngineError RollbackOutcome :=
  let e := (e.emit (.rollbackStarted e.cursor.spot? x.spot)).cancelPlaybackScope
  let e := e.onPlayback (·.setSynchronizing true)
  match StateManager.restore e.services x with
  | (s, .error err) =>
    let e := (e.withServices s).onPlayback (·.setSynchronizing false)
    (e.onPlayback (·.stop (.fault err.message)), .error (.state err))
  | (s, .ok ()) =>
    let e := (e.withServices s).withStack (e.stack.truncateAfter position)
    let e := e.onPlayback (·.restorePosition d x.spot.index x.played x.waiting)
    (e.onPlayback (·.setSynchronizing false), .ok (.completed x.spot))

/-- Restores the snapshot at a position, unless its script has changed. -/
def rollbackToPosition (e : Engine) (position : Nat) :
    Engine × Except EngineError RollbackOutcome :=
  match e.stack.get? position with
  | none => (e, .ok (.unavailable .noMatch))
  | some x =>
    match e.loadDocument x.spot.script with
    | (e, .error err) => (e, .error err)
    | (e, .ok d) =>
      if d.revision ≠ x.revision || d.size < x.spot.index then
        (e, .ok (.unavailable .scriptChanged))
      else e.restoreSnapshot position x d

/-- Restores what was found on the stack, if anything plays. -/
def rollbackTo (e : Engine) (found : Except Unavailable Nat) :
    Engine × Except EngineError RollbackOutcome :=
  if e.player.document.isNone then (e, .ok (.unavailable .notPlaying))
  else
    match found with
    | .ok position => e.rollbackToPosition position
    | .error why => (e, .ok (.unavailable why))

/-- Restores the snapshot that a target selects. -/
def rollback (e : Engine) (target : RollbackTarget) :
    Engine × Except EngineError RollbackOutcome :=
  e.rollbackTo (e.playback.manager.findTarget target e.cursor.played)

/-- Restores the newest snapshot before the cursor that passes a test. -/
def rollbackWhere (e : Engine) (p : Snapshot → Bool) :
    Engine × Except EngineError RollbackOutcome :=
  e.rollbackTo (e.playback.manager.findWhere e.cursor.played p)

/-- Rolls back as far as the player may. -/
def rollbackPlayer (e : Engine) : Engine × Except EngineError RollbackOutcome :=
  e.rollback .playerAllowed

/-- Says whether the player may roll back to the newest snapshot; tells whether there is one. -/
def allowPlayerRollback (e : Engine) (allowed : Bool) : Engine × Bool :=
  (e.withStack (e.stack.allowNewest allowed), e.stack.newest?.isSome)

end Engine

end Playhead
