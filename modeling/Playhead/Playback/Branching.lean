import Playhead.Script.Document

/-!
Whether a command runs, and where playback goes at the branches of a conditional block.
-/

namespace Playhead

/-- What happens to a command when playback comes to it. -/
inductive Entry where
  | run
  /-- It is left out; playback goes on at an index. -/
  | skip (next : Nat)
deriving DecidableEq, Repr

/-- Whether the condition on a command holds. One that cannot be read or has no value does not. -/
def Command.isWanted (c : Command) (s : ServiceSet) : Bool :=
  match c.condition with
  | .error _ => false
  | .ok none => true
  | .ok (some source) =>
    match s.variableStore with
    | none => false
    | some vars => Expr.condition source vars.get? matches .ok true

namespace Document

/-- Decides about the command at an index. An `elseif` or `else` that is reached by falling out of
the branch before it leads to the end of the block. -/
def entry (d : Document) (index : Nat) (arrivedByBranch : Bool) (s : ServiceSet) : Entry :=
  match d.command? index with
  | none => .run
  | some c =>
    match c.role with
    | .none => if c.isWanted s then .run else .skip (index + 1)
    | .elseif | .else =>
      if arrivedByBranch then .run
      else .skip (((d.block? index).map (·.last)).getD (index + 1))
    | .if | .endif => .run

/-- The index after a branch, and whether it is reached because the branch is not taken. -/
def branchNext (d : Document) (index : Nat) (taken : Bool) : Nat × Bool :=
  if taken then (index + 1, false)
  else
    match d.block? index with
    | some link => (link.next, true)
    | none => (index + 1, false)

end Document

/-- How a command completes that faults: a branch is not taken, anything else is passed. -/
def Completion.ofFault : BlockRole → Completion
  | .if | .elseif => { flow := .branch false }
  | _ => {}

end Playhead
