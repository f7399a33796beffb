import Playhead.Command.Handler
import Playhead.Script.Token

/-!
From source lines to commands.

A line holds a comment, a label, a command after `@`, or text with commands in brackets. Unknown
commands and parameters and values of the wrong kind never fail the reading: they are reported, and
a value of the wrong kind faults when its command runs.
-/

namespace Playhead.Script

/-- A problem of a line that does not keep the script from playing. -/
structure Diagnostic where
  line : Nat
  message : String
deriving DecidableEq, Repr, Inhabited

def Diagnostic.text (d : Diagnostic) : String :=
  "line " ++ Decimal.digitsText d.line ++ ": " ++ d.message

/-- The parameters of a command as far as they are read. -/
structure Reading where
  params : NameMap ParamValue := .empty
  /-- Values without a name, in reverse. -/
  nameless : List (List Char) := []
  /-- Whether a named parameter was read; no value without a name may follow. -/
  named : Bool := false
  /-- In reverse. -/
  warnings : List String := []

namespace Reading

def warn (r : Reading) (message : String) : Reading :=
  { r with warnings := message :: r.warnings }

def assign (r : Reading) (name : String) (value : ParamValue) : Reading :=
  { r with params := r.params.insert name value }

def specs (h : Handler) : List ParamSpec :=
  h.params ++ [.condition]

def spec? (h : Handler) (name : String) : Option ParamSpec :=
  (specs h).find? fun s => s.name = name

def isFlag (h : Handler) (name : String) : Bool :=
  match spec? h name with
  | some s => s.kind = .bool
  | none => false

def takeValue (h : Handler) (r : Reading) (token : List Char) : Reading :=
  match splitNamed token with
  | some (name, value) =>
    let r := { r with named := true }
    match spec? h name with
    | some s => r.assign s.name (.ofSource value s.kind)
    | none => r.warn ("`" ++ h.name ++ "` has no parameter `" ++ name ++ "`")
  | none =>
    if r.named then
      r.warn ("unexpected value `" ++ String.ofList token ++ "` after named parameters")
    else { r with nameless := token :: r.nameless }

/-- Takes in one token: a flag, a named value, or a part of the value without a name. -/
def take (h : Handler) (r : Reading) (token : List Char) : Reading :=
  match asFlag token with
  | some (name, value) =>
    if isFlag h name then { r.assign name (.bool value) with named := true }
    else takeValue h r token
  | none => takeValue h r token

/-- Values without a name, joined by spaces. -/
def joined (tokens : List (List Char)) : List Char :=
  [' '].intercalate tokens

/-- Gives the values without a name to the parameter that takes them. -/
def close (h : Handler) (r : Reading) : Reading :=
  if r.nameless.isEmpty then r
  else match h.params.find? (·.nameless) with
    | some s => r.assign s.name (.ofSource (joined r.nameless.reverse) s.kind)
    | none => r.warn ("`" ++ h.name ++ "` does not take a nameless value")

/-- What is wrong with a parameter, read or not. -/
def checkSpec (h : Handler) (c : Command) (s : ParamSpec) : Option String :=
  match c.param s.name with
  | .unassigned => if s.required then some (ParamError.missing h.name s.name).message else none
  | .malformed raw expected => some (ParamError.malformed h.name s.name raw expected).message
  | _ => none

def checkCondition (c : Command) : List String :=
  match c.condition with
  | .ok (some source) =>
    match Expr.parse source with
    | .error e => [e.message]
    | .ok _ => []
  | _ => []

end Reading

/-- Reads the parameters of a command whose handler is known, with messages about it. -/
def readParams (h : Handler) (spot : SourceSpot) (tokens : List (List Char)) :
    Except WaitError (Command × List String) := do
  let r := (tokens.foldl (Reading.take h) {}).close h
  let c : Command := ⟨h.name, r.params, spot, h.role⟩
  let more ← h.diagnose c
  .ok (c, r.warnings.reverse ++ (Reading.specs h).filterMap (Reading.checkSpec h c) ++
    Reading.checkCondition c ++ more)

/-- Reads a name and parameters: what stands after `@` or between brackets. -/
def readCommand (registry : Registry) (spot : SourceSpot) (body : List Char) :
    Except WaitError (Option Command × List String) :=
  match splitTokens body with
  | [] => .ok (none, ["empty command"])
  | head :: rest =>
    let name := String.ofList head
    match registry.get? name with
    | none => .ok (none, ["unknown command `" ++ name ++ "`"])
    | some h => (readParams h spot rest).map fun r => (some r.1, r.2)

/-- The command that prints text of a line. -/
def printName : String := "print"

/-- Prints a piece of a line; a later step decides whether it waits. -/
def printCommand (author : Option String) (spot : SourceSpot) (text : List Char) : Command where
  name := printName
  params := .ofList <|
    [("text", .text (String.ofList text)), ("wait", .bool false)] ++
      (author.map fun a => ("author", .text a)).toList
  spot := spot
  role := .none

/-- Commands of the pieces of a line, `count` of which were read before. -/
def readSegments (registry : Registry) (author : Option String) (line : Nat) :
    Nat → List Segment → Except WaitError (List Command × List String)
  | _, [] => .ok ([], [])
  | count, .unclosed :: rest => do
    let (cs, notes) ← readSegments registry author line count rest
    .ok (cs, "unclosed inline command" :: notes)
  | count, .text text :: rest =>
    if (Text.trim text).isEmpty then readSegments registry author line count rest
    else do
      let (cs, notes) ← readSegments registry author line (count + 1) rest
      .ok (printCommand author ⟨line, count⟩ text :: cs, notes)
  | count, .command body :: rest => do
    let (c, before) ← readCommand registry ⟨line, count⟩ body
    let (cs, notes) ← readSegments registry author line (count + c.toList.length) rest
    .ok (c.toList ++ cs, before ++ notes)

/-- Makes the last command wait if it prints. -/
def waitAtEnd (cs : List Command) : List Command :=
  match cs.getLast? with
  | some c =>
    if c.name = printName then
      cs.dropLast ++ [{ c with params := c.params.insert "wait" (.bool true) }]
    else cs
  | none => cs

/-- Reads a line of text. -/
def readGeneric (registry : Registry) (waitByDefault : Bool) (number : Nat) (line : List Char) :
    Except WaitError (List Command × List String) :=
  let (author, body) := splitAuthor line
  (readSegments registry author number 0 (segments body)).map fun r =>
    (if waitByDefault then waitAtEnd r.1 else r.1, r.2)

/-- Reads one source line. -/
def readLine (registry : Registry) (waitByDefault : Bool) (number : Nat) (raw : List Char) :
    Except WaitError (ScriptLine × List String) :=
  let line := Text.trim raw
  match line with
  | [] => .ok (.empty, [])
  | ';' :: comment => .ok (.comment (String.ofList (Text.trim comment)), [])
  | '#' :: rest =>
    let name := Text.trim rest
    if name.isEmpty || name.any Text.isBlank then
      .ok (.empty, ["invalid label `" ++ String.ofList name ++ "`"])
    else .ok (.label (String.ofList name), [])
  | '@' :: body =>
    (readCommand registry ⟨number, 0⟩ body).map fun r =>
      match r.1 with
      | some c => (.command c, r.2)
      | none => (.empty, r.2)
  | line => (readGeneric registry waitByDefault number line).map fun r => (.generic r.1, r.2)

end Playhead.Script
