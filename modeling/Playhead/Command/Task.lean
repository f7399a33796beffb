import Playhead.Command.Fault
import Playhead.Command.Wait
import Playhead.Playback.Jump
import Playhead.Script.Command
import Playhead.Service.Set

/-!
Commands in flight.

Starting a command gives a task, which is stepped until it completes. A step reads its context and
may change the services. Only the step that completes a built-in command changes any.
-/

namespace Playhead

/-- Where playback goes after a command. -/
inductive Flow where
  | advance
  /-- Whether the branch of a conditional block is taken. -/
  | branch (taken : Bool)
  | jump (target : JumpTarget)
  | stop
deriving DecidableEq, Repr, Inhabited

structure Completion where
  flow : Flow := .advance
  waitForInput : Bool := false
  /-- Whether the player may roll back to the point after the command. -/
  allowRollback : Bool := true
deriving DecidableEq, Repr, Inhabited

/-- Why a task has not completed yet. -/
inductive Suspension where
  | yield
  | time (remaining : Nanoseconds)
deriving DecidableEq, Repr

/-- What a step sees beside the services. -/
structure Context where
  command : Command
  spot : Spot
  /-- Time since the step before. -/
  delta : Nanoseconds
  /-- Skipping ends time waits at once. -/
  skipping : Bool
  /-- Whether the command runs beside the main script. -/
  transient : Bool
  cancelled : Bool

/-- How far a task got; `σ` is what a suspended one keeps. -/
inductive Progress (σ : Type) where
  | suspended (rest : σ) (why : Suspension)
  | completed (c : Completion)
  | faulted (f : Fault)

/-- A task of a command of the host. What it keeps between steps is a JSON value. -/
structure HostTask where
  state : Json
  step : Json → Context → ServiceSet → Progress Json × ServiceSet
  cancel : Json → ServiceSet → ServiceSet

inductive Task where
  | print (entry : LogEntry) (wait : Bool)
  | wait (w : Wait)
  /-- With `returning`, the spot after the command goes onto the call stack. -/
  | jump (target : JumpTarget) (returning : Bool)
  | returnToCaller
  | assign (assignments : List Assignment)
  /-- Decides by the condition of the command. -/
  | branch
  | takeBranch
  | endBlock
  | stop
  | addChoice (o : ChoiceOption)
  | lock (allowed : Bool)
  | host (t : HostTask)

namespace Task

variable (ctx : Context) (s : ServiceSet)

def fault (f : Fault) : Progress Task × ServiceSet :=
  (.faulted f, s)

/-- A time wait uses up the time of the step; a cancelled one uses none and does not end. -/
def stepWait (w : Wait) : Progress Task :=
  if ctx.cancelled then .suspended (.wait w) .yield
  else match w.time with
    | none => .completed { waitForInput := w.input }
    | some time =>
      let remaining := if ctx.skipping then 0 else time - ctx.delta
      if remaining = 0 then .completed { waitForInput := w.input }
      else .suspended (.wait { w with time := some remaining }) (.time remaining)

def stepPrint (entry : LogEntry) (waits : Bool) : Progress Task × ServiceSet :=
  match s.textLog with
  | none => fault s (.missingService (s.idOf .textLog))
  | some log => (.completed { waitForInput := waits }, { s with textLog := some (log.push entry) })

def stepJump (target : JumpTarget) (returning : Bool) : Progress Task × ServiceSet :=
  let done : Progress Task := .completed { flow := .jump target }
  if !returning then (done, s)
  else if ctx.transient then fault s .gosubInTransient
  else match s.callStack with
    | none => fault s (.missingService (s.idOf .callStack))
    | some calls =>
      match calls.push? ⟨ctx.spot.script, ctx.spot.index + 1⟩ with
      | none => fault s .nestingTooDeep
      | some calls => (done, { s with callStack := some calls })

def stepReturn : Progress Task × ServiceSet :=
  match s.callStack with
  | none => fault s (.missingService (s.idOf .callStack))
  | some calls =>
    match calls.pop? with
    | none => fault s .returnWithoutGosub
    | some (spot, calls) =>
      (.completed { flow := .jump (.spot spot) }, { s with callStack := some calls })

def stepAssign (assignments : List Assignment) : Progress Task × ServiceSet :=
  match s.variableStore with
  | none => fault s (.missingService (s.idOf .variableStore))
  | some vars =>
    match vars.apply assignments with
    | .error e => fault s (.expr e)
    | .ok vars => (.completed {}, { s with variableStore := some vars })

/-- Whether the condition of a command holds. -/
def evalCondition : Except Fault Bool := do
  let source ← (ctx.command.requireExpression "condition").mapError .param
  match s.variableStore with
  | none => .error (.missingService (s.idOf .variableStore))
  | some vars => (Expr.condition source vars.get?).mapError .expr

def stepBranch : Progress Task × ServiceSet :=
  match evalCondition ctx s with
  | .error f => fault s f
  | .ok taken => (.completed { flow := .branch taken }, s)

def stepChoice (o : ChoiceOption) : Progress Task × ServiceSet :=
  match s.choices with
  | none => fault s (.missingService (s.idOf .choices))
  | some choices =>
    (.completed { allowRollback := false }, { s with choices := some (choices.add o) })

def stepHost (t : HostTask) : Progress Task × ServiceSet :=
  match t.step t.state ctx s with
  | (.suspended state why, s) => (.suspended (.host { t with state := state }) why, s)
  | (.completed c, s) => (.completed c, s)
  | (.faulted f, s) => (.faulted f, s)

def step (t : Task) : Progress Task × ServiceSet :=
  match t with
  | .print entry waits => stepPrint s entry waits
  | .wait w => (stepWait ctx w, s)
  | .jump target returning => stepJump ctx s target returning
  | .returnToCaller => stepReturn s
  | .assign assignments => stepAssign s assignments
  | .branch => stepBranch ctx s
  | .takeBranch => (.completed { flow := .branch true }, s)
  | .endBlock => (.completed {}, s)
  | .stop => (.completed { flow := .stop }, s)
  | .addChoice o => stepChoice s o
  | .lock allowed => (.completed { allowRollback := allowed }, s)
  | .host t => stepHost ctx s t

/-- Drops a task; what built-in commands keep needs no release. -/
def cancel (t : Task) : ServiceSet :=
  match t with
  | .host t => t.cancel t.state s
  | _ => s

end Task

end Playhead
