import Playhead.Decimal.Reader
import Playhead.Headless.Command

/-!
The words of a command line as what they ask for.
-/

namespace Playhead.Headless

inductive Request where
  | run (a : RunArgs)
  | validate (a : ValidateArgs)

/-- Words sorted into options with their values and the rest, both in order. -/
structure Words where
  options : List (String × String) := []
  free : List String := []

namespace Words

/-- The long names of short options. -/
def shortNames : List (String × String) :=
  [("-r", "--root"), ("-c", "--config"), ("-q", "--quiet")]

def flags : List String := ["--quiet", "--strict"]

def longName (word : String) : String :=
  (shortNames.lookup word).getD word

def isOption (word : String) : Bool :=
  "-".isPrefixOf word && word ≠ "-"

/-- Splits `--name=value` at the first equals sign. -/
def inlineValue? (word : String) : Option (String × String) :=
  let name := word.toList.takeWhile (· != '=')
  match word.toList.dropWhile (· != '=') with
  | _ :: value => some (String.ofList name, String.ofList value)
  | [] => none

def addOption (w : Words) (name value : String) : Words :=
  { w with options := (name, value) :: w.options }

/-- Sorts words; an option that lacks its value is the error. -/
def sort : List String → Except String Words
  | [] => .ok {}
  | "--" :: rest => .ok { free := rest }
  | word :: rest =>
    if !isOption word then (sort rest).map fun w => { w with free := word :: w.free }
    else
      match inlineValue? word with
      | some (name, value) => (sort rest).map (·.addOption (longName name) value)
      | none =>
        if flags.contains (longName word) then (sort rest).map (·.addOption (longName word) "")
        else
          match rest with
          | value :: rest => (sort rest).map (·.addOption (longName word) value)
          | [] => .error ("a value is required for `" ++ word ++ "`")

def get? (w : Words) (name : String) : Option String :=
  w.options.lookup name

/-- The first option that is none of these names. -/
def unknown? (w : Words) (names : List String) : Option String :=
  (w.options.map (·.1)).find? fun name => !names.contains name

def common (w : Words) (userConfig : String) : CommonArgs :=
  { root := (w.get? "--root").getD ".", config := w.get? "--config", userConfig := userConfig }

end Words

def nat? (text : String) : Option Nat :=
  if text ≠ "" && text.toList.all Char.isDigit then some (Decimal.natOfDigits text.toList)
  else none

def nats? (text : String) : Option (List Nat) :=
  (text.splitOn ",").mapM nat?

namespace Request

/-- Reads an option, or takes what stands for one that is not given. -/
def valueOf {α : Type} (w : Words) (name : String) (read? : String → Option α) (absent : α) :
    Except String α :=
  match w.get? name with
  | none => .ok absent
  | some text =>
    match read? text with
    | some a => .ok a
    | none => .error ("invalid value `" ++ text ++ "` for `" ++ name ++ "`")

def checkNames (w : Words) (names : List String) : Except String Unit :=
  match w.unknown? names with
  | some name => .error ("unexpected option `" ++ name ++ "`")
  | none => .ok ()

def runNames : List String :=
  ["--root", "--config", "--choose", "--max-ticks", "--tick-ms", "--report", "--quiet"]

def ofRunWords (userConfig : String) (w : Words) : Except String Request := do
  checkNames w runNames
  let choose ← valueOf w "--choose" nats? []
  let maxTicks ← valueOf w "--max-ticks" nat? 100000
  let tick ← valueOf w "--tick-ms" nat? 16
  match w.free with
  | [script] =>
    .ok (.run {
      w.common userConfig with
      script := script
      choose := choose
      maxTicks := maxTicks
      tick := tick
      report := w.get? "--report"
      quiet := (w.get? "--quiet").isSome })
  | _ => .error "`run` takes one script"

def ofValidateWords (userConfig : String) (w : Words) : Except String Request := do
  checkNames w ["--root", "--config", "--strict"]
  match w.free with
  | [] => .error "`validate` takes at least one script"
  | scripts =>
    .ok (.validate {
      w.common userConfig with
      scripts := scripts
      strict := (w.get? "--strict").isSome })

def usage : String :=
  "usage: run <script> [--root DIR] [--config FILE] [--choose N,N] [--max-ticks N] " ++
    "[--tick-ms N] [--report FILE] [--quiet]\n" ++
    "       validate <script>... [--root DIR] [--config FILE] [--strict]"

/-- Reads the words of a command line; the error says what is wrong with them. -/
def ofWords (userConfig : String) (words : List String) : Except String Request :=
  match words with
  | "run" :: rest => Words.sort rest >>= ofRunWords userConfig
  | "validate" :: rest => Words.sort rest >>= ofValidateWords userConfig
  | _ => .error usage

def common : Request → CommonArgs
  | .run a => a.toCommonArgs
  | .validate a => a.toCommonArgs

def report? : Request → Option String
  | .run a => if a.report = some "-" then none else a.report
  | .validate _ => none

def perform (files : FileTree) : Request → Outcome
  | .run a => Headless.run files a
  | .validate a => Headless.validate files a

end Request

/-- An error as it is shown, the causes below it. -/
def chainText : List String → String
  | [] => ""
  | [message] => "Error: " ++ message
  | [message, cause] => "Error: " ++ message ++ "\n\nCaused by:\n    " ++ cause
  | message :: causes =>
    "Error: " ++ message ++ "\n\nCaused by:" ++
      String.join (causes.zipIdx.map fun c =>
        "\n    " ++ Decimal.digitsText c.2 ++ ": " ++ c.1)

end Playhead.Headless
