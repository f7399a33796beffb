import Playhead.Engine.Rollback

/-!
Moving the cursor to a place of the active script, back by a snapshot and forward by playing.

A move that does not get there is undone.
-/

namespace Playhead

/-- A place of the active script. -/
inductive RewindTarget where
  /-- The first command on a line or after it. -/
  | line (n : Nat)
  | label (name : String)
deriving DecidableEq, Repr

/-- What a rewind that misses its target puts back. -/
structure RewindCheckpoint where
  cursor : Cursor
  document : Option Document
  halted : Bool
  arrivedByBranch : Bool
  game : StateMap
  global : StateMap
  stack : RollbackStack

namespace Engine

def rewindCheckpoint (e : Engine) : Except EngineError RewindCheckpoint := do
  let collect (scope : StateScope) : Except EngineError StateMap :=
    (StateMap.collect e.services scope).mapError fun err => .state (.service err)
  let game ← collect .game
  let global ← collect .global
  .ok ⟨e.cursor, e.player.document, e.player.halted, e.player.arrivedByBranch, game, global,
    e.stack⟩

/-- Puts the player back. A command that was in flight starts over. -/
def restorePlayer (p : Playback) (c : RewindCheckpoint) : Playback :=
  let p := p.cancelActive
  let p := { p with player := { p.player with
    cursor := { c.cursor with skipping := p.cursor.skipping }
    document := c.document
    halted := c.halted
    arrivedByBranch := c.arrivedByBranch
    waitElapsed := 0
    fastForward := none } }
  p.setSkip c.cursor.skipping

/-- Undoes a rewind. If the state of before is refused, playback stops. -/
def restoreCheckpoint (e : Engine) (c : RewindCheckpoint) : Engine × Except EngineError Unit :=
  let e := e.onPlayback (·.setSynchronizing true)
  let (s, restored) :=
    match c.game.apply .game e.services with
    | (s, .ok ()) => c.global.apply .global s
    | (s, .error err) => (s, .error err)
  let e := e.withServices s
  match restored with
  | .error err =>
    let e := e.onPlayback (·.setSynchronizing false)
    (e.onPlayback (·.stop (.fault err.message)), .error (.state (.service err)))
  | .ok () => ((e.withStack c.stack).onPlayback (restorePlayer · c), .ok ())

def playForward (e : Engine) (index : Nat) : Engine × Except EngineError Bool :=
  let (p, result) := e.playback.fastForward e.env index
  ({ e with playback := p }, result.mapError .jump)

/-- The position of the snapshot at an index of a script, or of the newest one before it. -/
def rewindPosition? (e : Engine) (script : String) (index : Nat) : Option Nat :=
  let m := e.playback.manager
  let played := e.cursor.played
  match m.findTarget (.spot ⟨script, index⟩) played with
  | .ok position => some position
  | .error _ =>
    match m.findWhere played fun s => s.spot.script = script && s.spot.index ≤ index with
    | .ok position => some position
    | .error _ => none

/-- Goes to an index; tells whether the cursor got there. -/
def rewindWithin (e : Engine) (d : Document) (current index : Nat) :
    Engine × Except EngineError Bool :=
  if current < index then e.playForward index
  else
    match e.rewindPosition? d.name index with
    | none => (e, .ok false)
    | some position =>
      match e.rollbackToPosition position with
      | (e, .error err) => (e, .error err)
      | (e, .ok outcome) =>
        if !outcome.isCompleted then (e, .ok false)
        else if e.cursor.index = some index then (e, .ok true)
        else e.playForward index

/-- Goes to an index of the active script or stays where it is; tells which. -/
def rewindToIndex (e : Engine) (d : Document) (index : Nat) : Engine × Except EngineError Bool :=
  let current := e.cursor.index.getD d.size
  if index = current && e.player.active.isNone then (e, .ok true)
  else
    match e.rewindCheckpoint with
    | .error err => (e, .error err)
    | .ok c =>
      match e.rewindWithin d current index with
      | (e, .error err) => (e, .error err)
      | (e, .ok true) => (e, .ok true)
      | (e, .ok false) =>
        if e.cursor = c.cursor then (e, .ok false)
        else
          match e.restoreCheckpoint c with
          | (e, .ok ()) => (e, .ok false)
          | (e, .error err) => (e, .error err)

/-- Goes to a place of the active script; tells whether the cursor got there. -/
def rewindTo (e : Engine) (target : RewindTarget) : Engine × Except EngineError Bool :=
  match e.player.document with
  | none => (e, .error (.jump .notPlaying))
  | some d =>
    match target with
    | .line n =>
      match d.indexForLine? n with
      | some index => e.rewindToIndex d index
      | none => (e, .ok false)
    | .label name =>
      match d.labelIndex? name with
      | some index => e.rewindToIndex d index
      | none => (e, .error (.jump (.unknownLabel d.name name)))

end Engine

end Playhead
