import Playhead.Digest.XXH3
import Playhead.Script.Block
import Playhead.Script.Reader
import Playhead.Text.Basic

/-!
Scripts that are read and ready to play.

The revision of a document is the hash of its source, so a changed source is a new revision.
-/

namespace Playhead

structure Document where
  name : String
  revision : UInt64
  lines : List ScriptLine
  commands : Array Command
  /-- The index of the command after each label. -/
  labels : NameMap Nat
  blocks : BlockMap
  diagnostics : List Script.Diagnostic
deriving Inhabited

namespace Document

/-- A document as far as its lines are read. Lists are in reverse. -/
structure Draft where
  lines : List ScriptLine := []
  commands : Array Command := #[]
  labels : NameMap Nat := .empty
  diagnostics : List Script.Diagnostic := []

/-- Adds a line with the messages about it. Of two labels of one name the first counts. -/
def Draft.add (d : Draft) (number : Nat) (line : ScriptLine) (notes : List String) : Draft :=
  let remark (message : String) : Script.Diagnostic := ⟨number, message⟩
  let d : Draft := { d with
    lines := line :: d.lines,
    diagnostics := (notes.map remark).reverse ++ d.diagnostics }
  match line with
  | .label name =>
    if d.labels.contains name then
      let text := "duplicate label `" ++ name ++ "`; the first one is used"
      { d with diagnostics := remark text :: d.diagnostics }
    else { d with labels := d.labels.insert name d.commands.size }
  | line => { d with commands := d.commands ++ line.commands }

def readLines (registry : Registry) (waitByDefault : Bool) :
    Nat → Draft → List (List Char) → Except ScriptError Draft
  | _, d, [] => .ok d
  | number, d, raw :: rest =>
    match Script.readLine registry waitByDefault number raw with
    | .ok (line, notes) =>
      readLines registry waitByDefault (number + 1) (d.add number line notes) rest
    | .error _ => .error .waitTooLong

/-- What is wrong with a jump target, as far as the script alone can tell. -/
def checkTarget (script : String) (labels : NameMap Nat) (text : String) : Option String :=
  match JumpTarget.parse? text with
  | none => some ("invalid jump target `" ++ text ++ "`")
  | some (.label target (some name)) =>
    if (target = none || target = some script) && !labels.contains name then
      some ("unknown label `" ++ name ++ "`")
    else none
  | some _ => none

def checkTargets (registry : Registry) (script : String) (labels : NameMap Nat) (c : Command) :
    List Script.Diagnostic :=
  match registry.get? c.name with
  | none => []
  | some h => (h.targets c).filterMap fun text =>
    (checkTarget script labels text).map fun message => ⟨c.spot.line, message⟩

/-- Reads a source text. Only blocks that do not nest make it fail. -/
def parse (registry : Registry) (waitByDefault : Bool) (name source : String) :
    Except ScriptError Document := do
  let d ← readLines registry waitByDefault 1 {} (Text.lines source)
  let blocks ← BlockMap.ofCommands name d.commands.toList
  let targets := d.commands.toList.flatMap (checkTargets registry name d.labels)
  .ok {
    name := name
    revision := XXH3.hash source.toUTF8
    lines := d.lines.reverse
    commands := d.commands
    labels := d.labels
    blocks := blocks
    diagnostics := (d.diagnostics.reverse ++ targets).mergeSort fun a b => a.line ≤ b.line }

def size (d : Document) : Nat :=
  d.commands.size

def command? (d : Document) (index : Nat) : Option Command :=
  d.commands[index]?

/-- The index of the command after a label, or the end of the script. -/
def labelIndex? (d : Document) (name : String) : Option Nat :=
  d.labels.get? name

/-- The end of the indices of a range that pass a test, which all stand in front of the others; it
is found by halving the range. -/
def bisect (test : Nat → Bool) (first last : Nat) : Nat :=
  if first < last then
    let middle := (first + last) / 2
    if test middle then bisect test (middle + 1) last else bisect test first middle
  else first
termination_by last - first

/-- The first command on a line or after it. -/
def indexForLine? (d : Document) (line : Nat) : Option Nat :=
  let index := bisect (fun i => (d.command? i).any fun c => c.spot.line < line) 0 d.size
  if index < d.size then some index else none

def block? (d : Document) (index : Nat) : Option BlockLink :=
  d.blocks.get? index

end Document

end Playhead
