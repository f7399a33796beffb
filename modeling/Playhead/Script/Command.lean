import Playhead.Json.Printer
import Playhead.NameMap
import Playhead.Script.Param

/-!
Commands of a script and how an execution reads their parameters.
-/

namespace Playhead

/-- A command's line, counted from one, and its place among the commands of that line. -/
structure SourceSpot where
  line : Nat
  inline : Nat
deriving DecidableEq, Repr, Inhabited

/-- The place is shown from the second command of a line on. -/
def SourceSpot.text (s : SourceSpot) : String :=
  "line " ++ Decimal.digitsText s.line ++
    (if s.inline = 0 then "" else ":" ++ Decimal.digitsText s.inline)

/-- The part a command plays in a conditional block. -/
inductive BlockRole where
  | none
  | if
  | elseif
  | else
  | endif
deriving DecidableEq, Repr, Inhabited

structure Command where
  /-- The name under which the command is registered. -/
  name : String
  params : NameMap ParamValue
  spot : SourceSpot
  role : BlockRole
deriving Inhabited

namespace Command

def param (c : Command) (name : String) : ParamValue :=
  (c.params.get? name).getD .unassigned

/-- Reads a parameter that need not be there; `read` knows the values of the expected kind. -/
def optional {α : Type} (c : Command) (name : String) (expected : ParamKind)
    (read : ParamValue → Option α) : Except ParamError (Option α) :=
  match c.param name with
  | .unassigned => .ok none
  | .malformed raw kind => .error (.malformed c.name name raw kind)
  | value =>
    match read value with
    | some a => .ok (some a)
    | none => .error (.wrongKind c.name name expected)

def text (c : Command) (name : String) : Except ParamError (Option String) :=
  c.optional name .text fun
    | .text s => some s
    | _ => none

def number (c : Command) (name : String) : Except ParamError (Option Float) :=
  c.optional name .number fun
    | .number x => some x
    | _ => none

def flag (c : Command) (name : String) : Except ParamError (Option Bool) :=
  c.optional name .bool fun
    | .bool b => some b
    | _ => none

def expression (c : Command) (name : String) : Except ParamError (Option String) :=
  c.optional name .expression fun
    | .expression s => some s
    | _ => none

def textList (c : Command) (name : String) : Except ParamError (Option (List String)) :=
  c.optional name .textList fun
    | .list items => items.mapM fun
      | .text s => some s
      | _ => none
    | _ => none

/-- Turns an absent parameter into a fault. -/
def required {α : Type} (c : Command) (name : String) (read : Except ParamError (Option α)) :
    Except ParamError α := do
  match ← read with
  | some a => .ok a
  | none => .error (.missing c.name name)

def requireText (c : Command) (name : String) : Except ParamError String :=
  c.required name (c.text name)

def requireNumber (c : Command) (name : String) : Except ParamError Float :=
  c.required name (c.number name)

def requireExpression (c : Command) (name : String) : Except ParamError String :=
  c.required name (c.expression name)

/-- The condition on which the command runs, if it has one. -/
def condition (c : Command) : Except ParamError (Option String) :=
  c.expression ParamSpec.condition.name

end Command

/-- A source line by what it holds. -/
inductive ScriptLine where
  | empty
  | comment (text : String)
  | label (name : String)
  | command (c : Command)
  /-- Text for the reader, with commands in brackets between it. -/
  | generic (commands : List Command)
deriving Inhabited

/-- Commands of a line in the order in which they run. -/
def ScriptLine.commands : ScriptLine → List Command
  | .command c => [c]
  | .generic commands => commands
  | _ => []

end Playhead
