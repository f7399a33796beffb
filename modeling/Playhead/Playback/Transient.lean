import Playhead.Playback.Branching
import Playhead.Playback.Cancellation
import Playhead.Playback.Event

/-!
Transient scripts: short scripts that run beside the main one.

They share its services, but take no snapshots, never wait for input and only jump inside
themselves. A run ends when its scope is cancelled.
-/

namespace Playhead

/-- A transient script under way. -/
structure TransientRun where
  handle : TransientHandle
  document : Document
  index : Nat
  /-- Whether the run came to its index from a branch that was not taken. -/
  arrivedByBranch : Bool
  active : Option (Nat × Task)
  scope : CancelScope

namespace TransientRun

/-- Drops the command in flight. -/
def abandon (r : TransientRun) (s : ServiceSet) : ServiceSet :=
  match r.active with
  | some (_, task) => task.cancel s
  | none => s

/-- The index a target names, if it is in the script itself. -/
def localJump (r : TransientRun) (target : JumpTarget) : Except String Nat :=
  let own := r.document.name
  let outside : Except String Nat :=
    .error ("transient script `" ++ own ++ "` cannot jump outside itself (" ++
      target.describe ++ ")")
  match target with
  | .label script (some label) =>
    if script = none || script = some own then
      match r.document.labelIndex? label with
      | some index => .ok index
      | none =>
        .error ("label `" ++ label ++ "` not found in transient script `" ++ own ++ "`")
    else outside
  | .spot s => if s.script = own && s.index ≤ r.document.size then .ok s.index else outside
  | _ => outside

/-- Moves past a command; gives how the run ended, if it did. -/
def complete (r : TransientRun) (index : Nat) (c : Completion) :
    TransientRun × Option TransientStatus :=
  match c.flow with
  | .advance => ({ r with index := index + 1 }, none)
  | .branch taken =>
    let (next, byBranch) := r.document.branchNext index taken
    ({ r with index := next, arrivedByBranch := byBranch }, none)
  | .stop => (r, some .completed)
  | .jump target =>
    match r.localJump target with
    | .ok next => ({ r with index := next }, none)
    | .error message => (r, some (.failed message))

def report (r : TransientRun) (s : Scene) (index : Nat) (message : String) : Scene :=
  s.emit (.fault (some ⟨r.document.name, index⟩) message)

/-- What a step did: it suspended, the run goes on, or it ended. -/
inductive Progress where
  | suspended
  | running
  | ended (status : TransientStatus)
deriving DecidableEq, Repr

def Progress.ofComplete : Option TransientStatus → Progress
  | none => .running
  | some status => .ended status

/-- Steps a command in flight. -/
def step (r : TransientRun) (s : Scene) (index : Nat) (task : Task) (delta : Nanoseconds) :
    TransientRun × Scene × Progress :=
  let idle := { r with active := none }
  match r.document.command? index with
  | none => (idle, s, .running)
  | some c =>
    let ctx : Context :=
      { command := c, spot := ⟨r.document.name, index⟩, delta := delta, skipping := false,
        transient := true, cancelled := false }
    match task.step ctx s.services with
    | (.suspended task _, services) =>
      ({ r with active := some (index, task) }, { s with services := services }, .suspended)
    | (.completed completion, services) =>
      let (r, ended) := idle.complete index completion
      (r, { s with services := services }, .ofComplete ended)
    | (.faulted f, services) =>
      let (r, ended) := idle.complete index (.ofFault c.role)
      (r, idle.report { s with services := services } index f.message, .ofComplete ended)

/-- Comes to so many commands and steps those that run; the first step takes the time that has
passed. -/
def run (registry : Registry) :
    Nat → Nanoseconds → TransientRun → Scene → TransientRun × Scene × Option TransientStatus
  | 0, _, r, s => (r, s, none)
  | n + 1, delta, r, s =>
    match r.document.command? r.index with
    | none => (r, s, some .completed)
    | some c =>
      let arrived := r.arrivedByBranch
      let r := { r with arrivedByBranch := false }
      match r.document.entry r.index arrived s.services with
      | .skip next => run registry n delta { r with index := next } s
      | .run =>
        match registry.get? c.name with
        | none =>
          run registry n delta { r with index := r.index + 1 }
            (r.report s r.index ("unknown command `" ++ c.name ++ "`"))
        | some h =>
          match h.begin c with
          | .error f =>
            let s := r.report s r.index f.message
            match r.complete r.index (.ofFault c.role) with
            | (r, some status) => (r, s, some status)
            | (r, none) => run registry n delta r s
          | .ok task =>
            match r.step s r.index task delta with
            | (r, s, .suspended) => (r, s, none)
            | (r, s, .ended status) => (r, s, some status)
            | (r, s, .running) => run registry n 0 r s

/-- Advances a run by a time; gives how it ended, if it did. -/
def advance (registry : Registry) (cancelled : Bool) (r : TransientRun) (s : Scene)
    (delta : Nanoseconds) (budget : Nat) : TransientRun × Scene × Option TransientStatus :=
  if cancelled then
    ({ r with active := none }, { s with services := r.abandon s.services }, some .cancelled)
  else
    match r.active with
    | none => run registry budget delta r s
    | some (index, task) =>
      match r.step s index task delta with
      | (r, s, .suspended) => (r, s, none)
      | (r, s, .ended status) => (r, s, some status)
      | (r, s, .running) => run registry budget 0 r s

end TransientRun

/-- The runs in progress in the order of their starts, and how earlier ones ended. -/
structure TransientRunner where
  /-- The number of the latest handle. -/
  started : Nat
  runs : List TransientRun
  finished : List (Nat × TransientStatus)
deriving Inhabited

namespace TransientRunner

def empty : TransientRunner := ⟨0, [], []⟩

/-- How many finished runs are remembered. -/
def historySize : Nat := 256

/-- Queues a script, which starts with the next tick. -/
def start (t : TransientRunner) (d : Document) (scope : CancelScope) :
    TransientHandle × TransientRunner :=
  let handle : TransientHandle := ⟨t.started + 1⟩
  let run : TransientRun := ⟨handle, d, 0, false, none, scope⟩
  (handle, { t with started := t.started + 1, runs := t.runs ++ [run] })

def isRunning (t : TransientRunner) (h : TransientHandle) : Bool :=
  t.runs.any fun r => r.handle = h

def status? (t : TransientRunner) (h : TransientHandle) : Option TransientStatus :=
  if t.isRunning h then some .running else t.finished.lookup h.number

/-- The status of a run; a finished one is forgotten. -/
def takeStatus (t : TransientRunner) (h : TransientHandle) :
    Option TransientStatus × TransientRunner :=
  if t.isRunning h then (some .running, t)
  else
    (t.finished.lookup h.number, { t with finished := t.finished.filter fun e => e.1 ≠ h.number })

/-- Drops the entry with the lowest number. -/
def dropOldest (l : List (Nat × TransientStatus)) : List (Nat × TransientStatus) :=
  match (l.map (·.1)).min? with
  | some oldest => l.filter fun e => e.1 ≠ oldest
  | none => l

/-- Remembers how a run ended. The history drops its oldest run when it is full. -/
def remember (t : TransientRunner) (h : TransientHandle) (status : TransientStatus) :
    TransientRunner :=
  let finished := (h.number, status) :: t.finished
  { t with finished := if historySize < finished.length then dropOldest finished else finished }

/-- Lets runs take their turn one after the other. A turn gives what is left of the run, unless it
has ended. -/
def visit
    (turn : TransientRun → Scene → TransientRun × Scene × Option TransientStatus) :
    List TransientRun → TransientRunner → Scene → TransientRunner × Scene
  | [], t, s => (t, s)
  | r :: rest, t, s =>
    match turn r s with
    | (r, s, none) => visit turn rest { t with runs := t.runs ++ [r] } s
    | (r, s, some status) =>
      visit turn rest (t.remember r.handle status) (s.emit (.transientFinished r.handle status))

def visitAll (t : TransientRunner)
    (turn : TransientRun → Scene → TransientRun × Scene × Option TransientStatus) (s : Scene) :
    TransientRunner × Scene :=
  visit turn t.runs { t with runs := [] } s

/-- Advances every run by a time. -/
def tick (t : TransientRunner) (registry : Registry) (c : Cancellations) (s : Scene)
    (delta : Nanoseconds) (budget : Nat) : TransientRunner × Scene :=
  t.visitAll (fun r s => r.advance registry (c.isCancelled r.scope) s delta budget) s

/-- Ends every run whose scope is cancelled. -/
def reapCancelled (t : TransientRunner) (c : Cancellations) (s : Scene) :
    TransientRunner × Scene :=
  t.visitAll (fun r s =>
    if c.isCancelled r.scope then
      ({ r with active := none }, { s with services := r.abandon s.services }, some .cancelled)
    else (r, s, none)) s

/-- Cancels the scopes of all runs and ends the runs. -/
def cancelAll (t : TransientRunner) (c : Cancellations) (s : Scene) :
    TransientRunner × Cancellations × Scene :=
  let c := t.runs.foldl (fun c r => c.cancel r.scope) c
  let (t, s) := t.reapCancelled c s
  (t, c, s)

end TransientRunner

end Playhead
