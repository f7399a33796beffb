import Playhead.Command.Task
import Playhead.Script.Document

/-!
What expressions, commands and scripts were read as, as JSON for tools.

Unlike the records of services these forms keep apart all that is told apart: a number that is not
finite stands as its name.
-/

namespace Playhead

def Json.ofTag (name : String) (j : Json) : Json :=
  .record [(name, j)]

namespace Value

def inspectNumber (x : Float) : Json :=
  if x.isFinite then .number x else .text (numberText x)

def inspect : Value → Json
  | .bool b => .ofTag "bool" (.bool b)
  | .number x => .ofTag "number" (inspectNumber x)
  | .text s => .ofTag "text" (.text s)

end Value

namespace Expr

mutual

def inspect : Expr → Json
  | .literal v => .ofTag "lit" v.inspect
  | .variable name => .ofTag "var" (.text name)
  | .not e => .ofTag "not" (inspect e)
  | .neg e => .ofTag "neg" (inspect e)
  | .binary op l r =>
    .record [("op", .text op.sign.name), ("l", inspect l), ("r", inspect r)]
  | .call function args =>
    .record [("call", .text function), ("args", .list (inspectAll args))]

def inspectAll : List Expr → List Json
  | [] => []
  | e :: rest => inspect e :: inspectAll rest

end

end Expr

def Assignment.inspect (a : Assignment) : Json :=
  let sign := (a.op.binary?.map fun op => op.sign.name).getD "" ++ "="
  .record [("target", .text a.target), ("op", .text sign), ("value", a.value.inspect)]

namespace ParamValue

mutual

def inspect : ParamValue → Json
  | .unassigned => .null
  | .text s => .ofTag "text" (.text s)
  | .number x => .ofTag "number" (Value.inspectNumber x)
  | .bool b => .ofTag "bool" (.bool b)
  | .list items => .ofTag "list" (.list (inspectAll items))
  | .expression source => .ofTag "expr" (.text source)
  | .malformed raw expected =>
    .record [("malformed", .text raw), ("expected", .text expected.name)]

def inspectAll : List ParamValue → List Json
  | [] => []
  | v :: rest => inspect v :: inspectAll rest

end

end ParamValue

def BlockRole.name : BlockRole → String
  | .none => "None"
  | .if => "If"
  | .elseif => "ElseIf"
  | .else => "Else"
  | .endif => "EndIf"

def Command.inspect (c : Command) : Json :=
  .record [("name", .text c.name), ("at", .text c.spot.text), ("role", .text c.role.name),
    ("params", .record (c.params.entries.map fun e => (e.1, e.2.inspect)))]

def ScriptLine.inspect : ScriptLine → Json
  | .empty => .text "empty"
  | .comment text => .ofTag "comment" (.text text)
  | .label name => .ofTag "label" (.text name)
  | .command c => .ofTag "command" (.text c.spot.text)
  | .generic commands => .ofTag "generic" (.ofStrings (commands.map fun c => c.spot.text))

namespace Document

def revisionText (revision : UInt64) : String :=
  Json.hexText 16 revision.toNat

def inspectLabels (d : Document) : Json :=
  .list (d.labels.entries.map fun e => .list [.text e.1, .int e.2])

def inspectBlocks (d : Document) : Json :=
  .list ((List.range d.size).filterMap fun (i : Nat) =>
    (d.block? i).map fun b => .list [.int i, .int b.next, .int b.last])

def inspect (d : Document) : Json :=
  .record [("name", .text d.name), ("revision", .text (revisionText d.revision)),
    ("len", .int d.size), ("is_empty", .bool (d.size = 0)),
    ("lines", .list (d.lines.map ScriptLine.inspect)),
    ("commands", .list (d.commands.toList.map Command.inspect)),
    ("labels", d.inspectLabels), ("blocks", d.inspectBlocks),
    ("diagnostics", .ofStrings (d.diagnostics.map (·.text)))]

end Document

def JumpTarget.inspect : JumpTarget → Json
  | .label script name =>
    .record [("script", .ofOption .text script), ("label", .ofOption .text name)]
  | .spot s => .ofTag "spot" (.text s.text)

def Flow.inspect : Flow → Json
  | .advance => .text "advance"
  | .branch taken => .ofTag "branch" (.bool taken)
  | .jump target => .ofTag "jump" target.inspect
  | .stop => .text "stop"

def Completion.inspect (c : Completion) : Json :=
  .record [("flow", c.flow.inspect), ("wait", .bool c.waitForInput),
    ("allow", .bool c.allowRollback)]

end Playhead
