import Playhead.Library.Scripts
import Playhead.Playback.Branching
import Playhead.Playback.Cancellation
import Playhead.Playback.Event
import Playhead.State.Manager

/-!
The player of the main script: its cursor, the command in flight, and the moves of the cursor.

Every move but that of a selection drops the command in flight or is made when there is none.
-/

namespace Playhead

/-- Where main playback is and how it goes on. -/
structure Cursor where
  script : String := ""
  revision : UInt64 := 0
  /-- The next command, or the one in flight; none once playback has stopped. -/
  index : Option Nat := none
  /-- Commands started since playback began. -/
  played : Nat := 0
  waiting : Bool := false
  skipping : Bool := false
  autoPlaying : Bool := false
  /-- Set while state is being restored. -/
  synchronizing : Bool := false
deriving DecidableEq, Repr, Inhabited

namespace Cursor

def spot? (c : Cursor) : Option Spot :=
  c.index.map fun i => ⟨c.script, i⟩

def isStopped (c : Cursor) : Bool :=
  c.index.isNone

end Cursor

inductive PlayerStatus where
  /-- Nothing was played yet. -/
  | idle
  | playing
  | waitingForInput
  | skipping
  | autoPlaying
  | stopped
deriving DecidableEq, Repr

/-- The command in flight. -/
structure ActiveCommand where
  index : Nat
  task : Task
  /-- Whether its completion captures a snapshot. -/
  eligible : Bool

/-- A run forward to a command of a script. -/
structure FastForward where
  script : String
  target : Nat
  reached : Bool
  /-- Whether playback came to a command after the target. -/
  missed : Bool
deriving DecidableEq, Repr

structure Player where
  cursor : Cursor
  document : Option Document
  active : Option ActiveCommand
  /-- Playback has stopped at the cursor and can be resumed there. -/
  halted : Bool
  /-- Whether the cursor came here from a branch that was not taken. -/
  arrivedByBranch : Bool
  /-- How long auto-play has been waiting. -/
  waitElapsed : Nanoseconds
  /-- Transient scripts in this scope end with a rollback. -/
  scope : CancelScope
  fastForward : Option FastForward

namespace Player

def inScope (s : CancelScope) : Player :=
  ⟨{}, none, none, false, false, 0, s, none⟩

instance : Inhabited Player := ⟨inScope default⟩

def status (p : Player) : PlayerStatus :=
  if p.document.isNone then .idle
  else if p.halted || p.cursor.isStopped then .stopped
  else if p.cursor.waiting then .waitingForInput
  else if p.cursor.skipping then .skipping
  else if p.cursor.autoPlaying then .autoPlaying
  else .playing

def isRunning (p : Player) : Bool :=
  p.document.isSome && !p.halted && !p.cursor.isStopped

/-- Goes on after a halt; tells whether there was one. -/
def resume (p : Player) : Player × Bool :=
  if p.document.isNone || !p.halted || p.cursor.isStopped then (p, false)
  else ({ p with halted := false }, true)

end Player

/-- Why playback cannot go to a place. -/
inductive JumpError where
  | library (e : LibraryError)
  | unknownLabel (script label : String)
  | invalidSpot (s : Spot)
  | notPlaying
deriving DecidableEq, Repr

def JumpError.message : JumpError → String
  | .library e => e.message
  | .unknownLabel script label =>
    "label `" ++ label ++ "` not found in script `" ++ script ++ "`"
  | .invalidSpot s => s.text ++ " is outside its script"
  | .notPlaying => "nothing is playing"

/-- What playback reads and never changes. -/
structure Env where
  source : ScriptLibrary.Source
  config : PlayerConfig

/-- The main player and all that it may change. -/
structure Playback where
  player : Player
  scene : Scene
  manager : StateManager
  library : ScriptLibrary
  scopes : Cancellations
deriving Inhabited

namespace Playback

def emit (p : Playback) (e : Event) : Playback :=
  { p with scene := p.scene.emit e }

def services (p : Playback) : ServiceSet :=
  p.scene.services

def cursor (p : Playback) : Cursor :=
  p.player.cursor

def withServices (p : Playback) (s : ServiceSet) : Playback :=
  { p with scene := { p.scene with services := s } }

def withCursor (p : Playback) (c : Cursor) : Playback :=
  { p with player := { p.player with cursor := c } }

def setSynchronizing (p : Playback) (on : Bool) : Playback :=
  p.withCursor { p.cursor with synchronizing := on }

def choicesPending (p : Playback) : Bool :=
  p.services.choicesPending

/-- Drops the command in flight. -/
def cancelActive (p : Playback) : Playback :=
  match p.player.active with
  | none => p
  | some a =>
    { p.withServices (a.task.cancel p.services) with
      player := { p.player with active := none } }

theorem cancelActive_of_idle {p : Playback} (h : p.player.active = none) : p.cancelActive = p := by
  unfold cancelActive
  rw [h]

/-- Opens a new scope in place of the one of playback. -/
def renewScope (p : Playback) : Playback :=
  let (scope, scopes) := p.scopes.root
  { p with player := { p.player with scope := scope }, scopes := scopes }

def setSkip (p : Playback) (on : Bool) : Playback :=
  if p.cursor.skipping = on then p
  else (p.withCursor { p.cursor with skipping := on }).emit (.skipChanged on)

def setAutoPlay (p : Playback) (on : Bool) : Playback :=
  if p.cursor.autoPlaying = on then p
  else
    let p := p.withCursor { p.cursor with autoPlaying := on }
    { p with player := { p.player with waitElapsed := 0 } }.emit (.autoPlayChanged on)

/-- Ends playback at the end of a script. -/
def endOfScript (p : Playback) (reason : StopReason) : Playback :=
  (p.withCursor { p.cursor with index := none, waiting := false }).emit (.stopped reason)

/-- Stops playback for good. -/
def stop (p : Playback) (reason : StopReason) : Playback :=
  let p := p.cancelActive
  let cursor := { p.cursor with index := none, waiting := false }
  { p with player := { p.player with cursor := cursor, halted := false, fastForward := none } }.emit
    (.stopped reason)

/-- Starts a script at an index with nothing counted as played. -/
def start (p : Playback) (d : Document) (index : Nat) : Playback :=
  let p := p.cancelActive.setSkip false
  let p := p.emit (.play d.name)
  let cursor : Cursor :=
    { script := d.name, revision := d.revision, index := some index,
      autoPlaying := p.cursor.autoPlaying }
  let p := { p with player := { p.player with
    cursor := cursor
    document := some d
    halted := false
    arrivedByBranch := false
    waitElapsed := 0
    fastForward := none } }
  if d.size ≤ index then p.endOfScript .endOfScript else p

/-- Waits for input at the cursor. -/
def enterWait (p : Playback) : Playback :=
  let cursor := { p.cursor with waiting := true }
  { p with player := { p.player with cursor := cursor, waitElapsed := 0 } }.emit
    (.waitingForInput cursor.spot?)

/-- Leaves an input wait. A wait for a choice ends by selection only. -/
def continueInput (p : Playback) : Playback :=
  if !p.cursor.waiting || p.choicesPending then p
  else
    let cursor := { p.cursor with waiting := false }
    { p with player := { p.player with cursor := cursor, waitElapsed := 0 } }

/-- Presents the pending options and waits for a selection. -/
def presentChoices (p : Playback) : Playback :=
  let options := p.services.pendingChoices
  let p := if p.player.fastForward.isNone then p.setSkip false else p
  p.enterWait.emit (.choicePresented options)

/-- Enters the wait that a restored position implies. -/
def settleWaiting (p : Playback) (waiting : Bool) : Playback :=
  if p.choicesPending then p.presentChoices
  else if waiting && !p.cursor.isStopped then p.enterWait
  else p

/-- Enters a script unless the cursor is in it already. -/
def enterScript (p : Playback) (d : Document) : Playback :=
  if d.name = p.cursor.script then p else p.emit (.play d.name)

/-- Puts the cursor at the position of a snapshot or a save. -/
def restorePosition (p : Playback) (d : Document) (index played : Nat) (waiting : Bool) :
    Playback :=
  let p := (p.cancelActive.setSkip false).enterScript d
  let cursor := { p.cursor with
    script := d.name
    revision := d.revision
    index := if index < d.size then some index else none
    played := played
    waiting := false }
  let p := { p with player := { p.player with
    cursor := cursor
    document := some d
    halted := false
    arrivedByBranch := false
    waitElapsed := 0
    fastForward := none } }
  p.settleWaiting waiting

/-- Points the cursor at a command of a script; past the last one playback ends. -/
def moveTo (p : Playback) (d : Document) (index : Nat) (atEnd : StopReason) : Playback :=
  let p := p.enterScript d
  let cursor := { p.cursor with script := d.name, revision := d.revision, waiting := false }
  let p := { p with player := { p.player with cursor := cursor, document := some d } }
  if d.size ≤ index then p.endOfScript atEnd
  else p.withCursor { p.cursor with index := some index }

/-- A script by name. The one that plays stands for itself, all others come from the library. -/
def documentFor (env : Env) (p : Playback) (current : Document) (name : String) :
    Playback × Except JumpError Document :=
  if name = current.name then (p, .ok current)
  else
    match p.library.load env.source name with
    | .ok (d, library) => ({ p with library := library }, .ok d)
    | .error e => (p, .error (.library e))

/-- The script and index that a target names, seen from the script that plays. -/
def resolveJump (env : Env) (p : Playback) (target : JumpTarget) :
    Playback × Except JumpError (Document × Nat) :=
  match p.player.document with
  | none => (p, .error .notPlaying)
  | some current =>
    match target with
    | .label script label =>
      match p.documentFor env current (script.getD current.name) with
      | (p, .error e) => (p, .error e)
      | (p, .ok d) =>
        match label with
        | none => (p, .ok (d, 0))
        | some label =>
          match d.labelIndex? label with
          | some index => (p, .ok (d, index))
          | none => (p, .error (.unknownLabel d.name label))
    | .spot s =>
      match p.documentFor env current s.script with
      | (p, .error e) => (p, .error e)
      | (p, .ok d) =>
        if d.size < s.index then (p, .error (.invalidSpot s)) else (p, .ok (d, s.index))

end Playback

end Playhead
