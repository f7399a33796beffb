import Playhead.Decimal.Reader
import Playhead.Text.Basic

/-!
Parameters of commands.

The text of a parameter never fails to become a value: text that does not fit the declared kind
stays as it is written, so that the fault shows when the command runs.
-/

namespace Playhead

inductive ParamKind where
  | text
  | number
  | bool
  | textList
  | numberList
  | expression
deriving DecidableEq, Repr

def ParamKind.name : ParamKind → String
  | .text => "text"
  | .number => "number"
  | .bool => "boolean"
  | .textList => "text list"
  | .numberList => "number list"
  | .expression => "expression"

inductive ParamValue where
  | unassigned
  | text (s : String)
  | number (x : Float)
  | bool (b : Bool)
  | list (items : List ParamValue)
  /-- The text of an expression, read when the command runs. -/
  | expression (source : String)
  | malformed (raw : String) (expected : ParamKind)
deriving Inhabited

/-- What a command declares of a parameter. -/
structure ParamSpec where
  name : String
  kind : ParamKind
  /-- Whether the command faults without it. -/
  required : Bool
  /-- Whether its value may stand without a name right after the command. -/
  nameless : Bool
deriving DecidableEq, Repr

/-- The condition that every command accepts. -/
def ParamSpec.condition : ParamSpec := ⟨"if", .expression, false, false⟩

inductive ParamError where
  | missing (command param : String)
  | malformed (command param raw : String) (expected : ParamKind)
  | wrongKind (command param : String) (expected : ParamKind)
deriving DecidableEq, Repr

def ParamError.message : ParamError → String
  | .missing command param => "`" ++ command ++ "` requires parameter `" ++ param ++ "`"
  | .malformed command param raw expected =>
    "parameter `" ++ param ++ "` of `" ++ command ++ "` expects a " ++ expected.name ++
      ", got `" ++ raw ++ "`"
  | .wrongKind command param expected =>
    "parameter `" ++ param ++ "` of `" ++ command ++ "` is not a " ++ expected.name

namespace ParamValue

/-- What stands between the quotes of a text that begins and ends with one. -/
def quotedBody? : List Char → Option (List Char)
  | '"' :: rest => if rest.getLast? = some '"' then some rest.dropLast else none
  | _ => none

/-- Drops each backslash before another character, which stays; `\n` is a new line. -/
def unescape : List Char → List Char
  | '\\' :: c :: rest => (if c = 'n' then '\n' else c) :: unescape rest
  | c :: rest => c :: unescape rest
  | [] => []

/-- The text in quotes, or the text as it is. -/
def unquoteChars (raw : List Char) : List Char :=
  match quotedBody? (Text.trim raw) with
  | some body => unescape body
  | none => raw

def unquote (raw : String) : String :=
  String.ofList (unquoteChars raw.toList)

/-- Whether a cut at a comma stands inside quotes. -/
def splitItems : Bool → List Char → List (List Char)
  | _, [] => [[]]
  | quoted, '\\' :: c :: rest => consFirst '\\' (consFirst c (splitItems quoted rest))
  | quoted, c :: rest =>
    if c = ',' && !quoted then [] :: splitItems quoted rest
    else consFirst c (splitItems (if c = '"' then !quoted else quoted) rest)
where
  /-- Adds a character in front of the first item. -/
  consFirst (c : Char) : List (List Char) → List (List Char)
    | [] => [[c]]
    | first :: rest => (c :: first) :: rest

/-- Items between commas outside quotes, without blanks around them; a blank text has none. -/
def splitList (raw : List Char) : List (List Char) :=
  match (splitItems false raw).map Text.trim with
  | [[]] => []
  | items => items

def finite? (cs : List Char) : Option Float :=
  match Decimal.float? (Text.trim (unquoteChars cs)) with
  | some x => if x.isFinite then some x else none
  | none => none

/-- The value of a parameter of a kind, read from its text. -/
def ofSource (raw : List Char) (kind : ParamKind) : ParamValue :=
  let malformed : ParamValue := .malformed (String.ofList raw) kind
  match kind with
  | .text => .text (String.ofList (unquoteChars raw))
  | .expression =>
    let source := Text.trim raw
    if source.isEmpty then malformed else .expression (String.ofList source)
  | .number => ((finite? raw).map .number).getD malformed
  | .bool =>
    let word := Text.trim (unquoteChars raw)
    if word = "true".toList then .bool true
    else if word = "false".toList then .bool false
    else malformed
  | .textList => .list ((splitList raw).map fun item => .text (String.ofList (unquoteChars item)))
  | .numberList =>
    match (splitList raw).mapM finite? with
    | some xs => .list (xs.map .number)
    | none => malformed

def isAssigned : ParamValue → Bool
  | .unassigned => false
  | _ => true

def isMalformed : ParamValue → Bool
  | .malformed _ _ => true
  | _ => false

end ParamValue

end Playhead
