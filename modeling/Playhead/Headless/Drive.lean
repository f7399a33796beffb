import Playhead.Engine.Choice
import Playhead.Headless.Report

/-!
Driving an engine without a frontend: input waits are left at once, and choices are answered from a
list, the first option once the list has run out.
-/

namespace Playhead

structure DriveOptions where
  choose : List Nat
  maxTicks : Nat
  tick : Nanoseconds

inductive DriveError where
  | engine (e : EngineError)
  | outOfRange (picked : Nat) (options : List String)
deriving DecidableEq, Repr

def DriveError.message : DriveError → String
  | .engine e => e.message
  | .outOfRange picked options =>
    "Choice " ++ Decimal.digitsText picked ++ " is out of range (" ++
      Decimal.digitsText options.length ++ " options: " ++ " / ".intercalate options ++ ")"

/-- Whether a script asks for more time than a clock holds. -/
def DriveError.isTooLong : DriveError → Bool
  | .engine e => e.isTooLong
  | .outOfRange _ _ => false

/-- A run under way. -/
structure Drive where
  engine : Engine
  report : RunReport
  picks : List Nat
  /-- How many entries of the text log were collected. -/
  seen : Nat := 0
  /-- What a reader of the run sees, line by line. -/
  shown : List String := []

namespace Drive

def start (e : Engine) (script : String) (o : DriveOptions) : Drive :=
  { engine := e, report := { script := script }, picks := o.choose }

/-- Takes note of faults and of why playback stopped. -/
def note (r : RunReport) (e : Event) : RunReport :=
  match e with
  | .fault (some spot) message => { r with faults := r.faults ++ [spot.text ++ ": " ++ message] }
  | .fault none message => { r with faults := r.faults ++ [message] }
  | .stopped reason => { r with stopReason := some reason.describe }
  | _ => r

def drainEvents (d : Drive) : Drive :=
  let (events, engine) := d.engine.drainEvents
  { d with engine := engine, report := events.foldl note d.report }

/-- Collects the lines that were printed since the last time. -/
def collectLines (d : Drive) : Drive :=
  match d.engine.services.textLog with
  | none => d
  | some log =>
    let lines := (log.entries.drop d.seen).map LogEntry.line
    { d with
      seen := log.size
      shown := d.shown ++ lines
      report := { d.report with lines := d.report.lines ++ lines } }

/-- Answers the options that are presented. -/
def pick (d : Drive) (options : List String) : Drive × Except DriveError Unit :=
  let picked := d.picks.head?.getD 0
  let d := { d with picks := d.picks.tail }
  match options[picked]? with
  | none => (d, .error (.outOfRange picked options))
  | some option =>
    let d := { d with shown := d.shown ++ ["> " ++ option] }
    match d.engine.selectChoice picked with
    | (engine, .error e) => ({ d with engine := engine }, .error (.engine e))
    | (engine, .ok ()) =>
      let report := { d.report with choices := d.report.choices ++ [⟨options, picked⟩] }
      ({ d with engine := engine, report := report }, .ok ())

/-- Reacts to the state after a tick; tells whether the run goes on. -/
def respond (d : Drive) : Drive × Except DriveError Bool :=
  match d.engine.status with
  | .stopped | .idle =>
    ({ d with report := { d.report with finished := true } }, .ok false)
  | .waitingForInput =>
    let options := d.engine.services.pendingChoices.map (·.text)
    if options.isEmpty then ({ d with engine := d.engine.continueInput }, .ok true)
    else
      match d.pick options with
      | (d, .ok ()) => (d, .ok true)
      | (d, .error e) => (d, .error e)
  | _ => (d, .ok true)

def finish (d : Drive) : Drive :=
  let stack := d.engine.stack
  { d with report := { d.report with snapshots := stack.size, evicted := stack.evicted } }

/-- Ticks until playback stops, at most so many times. -/
def run (tick : Nanoseconds) : Nat → Drive → Drive × Except DriveError Unit
  | 0, d => (d.finish, .ok ())
  | n + 1, d =>
    match d.engine.tick tick with
    | (engine, .error e) => ({ d with engine := engine }, .error (.engine e))
    | (engine, .ok ()) =>
      let report := { d.report with ticks := d.report.ticks + 1 }
      let d := { d with engine := engine, report := report }
      match d.drainEvents.collectLines.respond with
      | (d, .error e) => (d, .error e)
      | (d, .ok false) => (d.finish, .ok ())
      | (d, .ok true) => run tick n d

end Drive

/-- Drives an engine that was started on a script. -/
def Engine.drive (e : Engine) (script : String) (o : DriveOptions) :
    Drive × Except DriveError Unit :=
  Drive.run o.tick o.maxTicks (.start e script o)

end Playhead
