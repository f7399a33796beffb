import Playhead.Script.Command

/-!
Conditional blocks: every branch is linked to the next branch of its block and to the end.
-/

namespace Playhead

/-- Why a script cannot be played. -/
inductive ScriptError where
  | unmatchedBranch (script : String) (line : Nat) (command : String)
  | branchAfterElse (script : String) (line : Nat) (command : String)
  | unclosedIf (script : String) (line : Nat)
  /-- A wait asks for more time than a clock holds; reading is given up at once. -/
  | waitTooLong
deriving DecidableEq, Repr

def ScriptError.message : ScriptError → String
  | .unmatchedBranch script line command =>
    script ++ ": line " ++ Decimal.digitsText line ++ ": `" ++ command ++
      "` has no matching `if`"
  | .branchAfterElse script line command =>
    script ++ ": line " ++ Decimal.digitsText line ++ ": `" ++ command ++
      "` follows `else` in the same block"
  | .unclosedIf script line =>
    script ++ ": line " ++ Decimal.digitsText line ++ ": `if` is never closed by `endif`"
  | .waitTooLong => "wait too long"

/-- Links of a branch command. -/
structure BlockLink where
  /-- The next branch of the block, or its end. -/
  next : Nat
  /-- The end of the block. -/
  last : Nat
deriving DecidableEq, Repr, Inhabited

/-- Links by the index of the branch command. -/
abbrev BlockMap : Type := List (Nat × BlockLink)

namespace BlockMap

/-- A block that is not closed yet. -/
structure OpenBlock where
  /-- Index and line of its first branch. -/
  first : Nat
  line : Nat
  /-- Its further branches, the latest first. -/
  more : List Nat
  seenElse : Bool
deriving Repr

/-- Links branches, the latest first, to one another and to the end. -/
def linkBranches (last next : Nat) : List Nat → BlockMap
  | [] => []
  | branch :: earlier => (branch, ⟨next, last⟩) :: linkBranches last branch earlier

def OpenBlock.links (b : OpenBlock) (last : Nat) : BlockMap :=
  linkBranches last last (b.more ++ [b.first])

/-- Links of the commands from `index` on inside the open blocks, the innermost first. -/
def build (script : String) : Nat → List OpenBlock → List Command → Except ScriptError BlockMap
  | _, [], [] => .ok []
  | _, b :: _, [] => .error (.unclosedIf script b.line)
  | index, blocks, c :: rest =>
    match c.role, blocks with
    | .none, blocks => build script (index + 1) blocks rest
    | .if, blocks => build script (index + 1) (⟨index, c.spot.line, [], false⟩ :: blocks) rest
    | .elseif, b :: blocks | .else, b :: blocks =>
      if b.seenElse then .error (.branchAfterElse script c.spot.line c.name)
      else
        let b := { b with more := index :: b.more, seenElse := c.role = .else }
        build script (index + 1) (b :: blocks) rest
    | .endif, b :: blocks => do
      let links ← build script (index + 1) blocks rest
      .ok (b.links index ++ links)
    | _, [] => .error (.unmatchedBranch script c.spot.line c.name)

def ofCommands (script : String) (commands : List Command) : Except ScriptError BlockMap :=
  build script 0 [] commands

def get? (m : BlockMap) (index : Nat) : Option BlockLink :=
  List.lookup index m

end BlockMap

end Playhead
