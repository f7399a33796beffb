import Playhead.Playback.Spot
import Playhead.Service.Set
import Playhead.Text.Printable

/-!
Events: what happened during playback, for the host to react to.

The scene is what scripts act upon: the services, and the events the host has not taken yet.
-/

namespace Playhead

/-- Why main playback stopped. -/
inductive StopReason where
  | requested
  /-- A stop command; playback can be resumed. -/
  | command
  | endOfScript
  | fault (message : String)
  /-- The script that played was replaced. -/
  | scriptReloaded
  /-- The scope of playback was cancelled; playback can be resumed. -/
  | cancelled
deriving DecidableEq, Repr, Inhabited

namespace StopReason

def name : StopReason → String
  | .requested => "Requested"
  | .command => "Command"
  | .endOfScript => "EndOfScript"
  | .fault _ => "Fault"
  | .scriptReloaded => "ScriptReloaded"
  | .cancelled => "Cancelled"

/-- A reason as reports show it. -/
def describe : StopReason → String
  | .fault message => "Fault(" ++ Text.quoted message ++ ")"
  | reason => reason.name

end StopReason

/-- Tells the runs of transient scripts apart. -/
structure TransientHandle where
  number : Nat
deriving DecidableEq, Repr, Inhabited

def TransientHandle.text (h : TransientHandle) : String :=
  "transient#" ++ Decimal.digitsText h.number

inductive TransientStatus where
  | running
  | completed
  | cancelled
  | failed (message : String)
deriving DecidableEq, Repr, Inhabited

def TransientStatus.isFinished (s : TransientStatus) : Bool :=
  s ≠ .running

inductive Event where
  /-- Main playback entered a script. -/
  | play (script : String)
  /-- A command of the main script was started. -/
  | commandExecuted (spot : Spot) (command : String)
  | rollbackStarted (source : Option Spot) (target : Spot)
  | preloadProgress (script : String) (loaded total : Nat)
  | waitingForInput (spot : Option Spot)
  | choicePresented (options : List ChoiceOption)
  | fault (spot : Option Spot) (message : String)
  | snapshotEvicted (played : Nat)
  | stopped (reason : StopReason)
  | skipChanged (enabled : Bool)
  | autoPlayChanged (enabled : Bool)
  | transientFinished (handle : TransientHandle) (status : TransientStatus)
deriving DecidableEq, Repr, Inhabited

/-- Preloading progress between zero and one in single precision. -/
def preloadFraction (loaded total : Nat) : String :=
  if total = 0 then Json.singleText 1 1 else Json.singleText loaded total

structure Scene where
  services : ServiceSet
  /-- Kept newest first. -/
  newest : List Event
deriving Inhabited

namespace Scene

def emit (s : Scene) (e : Event) : Scene :=
  { s with newest := e :: s.newest }

def emitAll (s : Scene) (l : List Event) : Scene :=
  { s with newest := l.reverse ++ s.newest }

/-- The events in the order in which they happened. -/
def events (s : Scene) : List Event :=
  s.newest.reverse

theorem events_emit (s : Scene) (e : Event) : (s.emit e).events = s.events ++ [e] := by
  simp [events, emit]

theorem events_emitAll (s : Scene) (l : List Event) :
    (s.emitAll l).events = s.events ++ l := by
  simp [events, emitAll]

end Scene

end Playhead
