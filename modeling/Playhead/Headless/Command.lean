import Playhead.Config.File
import Playhead.Headless.Drive
import Playhead.Headless.Validate

/-!
The command line: playing a script and checking scripts, over a file tree.
-/

namespace Playhead.Headless

/-- What both commands take. -/
structure CommonArgs where
  /-- Resources lie under this directory. -/
  root : String := "."
  /-- The configuration file, if it is not the user's. -/
  config : Option String := none
  /-- Where the user's configuration lies. -/
  userConfig : String

structure RunArgs extends CommonArgs where
  script : String
  choose : List Nat := []
  maxTicks : Nat := 100000
  /-- In milliseconds. -/
  tick : Nat := 16
  /-- The file that takes the report; `-` is the output. -/
  report : Option String := none
  quiet : Bool := false

structure ValidateArgs extends CommonArgs where
  scripts : List String
  strict : Bool := false

/-- What a command did: the files after it, its output, and what went wrong, the outermost message
first. -/
structure Outcome where
  files : FileTree
  output : String
  result : Except (List String) Unit
  /-- Whether a script asks for more time than a clock holds. -/
  gaveUp : Bool := false

/-- An error of a configuration. What the system or the format says of it is left out. -/
def configChain (e : ConfigError) : List String :=
  match e with
  | .unreadable _ => ["failed to read config"]
  | e => [e.message]

/-- The messages of an error and of its cause. -/
def errorChain (e : EngineError) : List String :=
  match e with
  | .jump (.library (.resource _ why)) => [e.message, why.message]
  | .config e => configChain e
  | e => [e.message]

def loadConfig (files : FileTree) (a : CommonArgs) : Except (List String) Config :=
  match a.config with
  | none => .ok (Config.load files a.userConfig)
  | some path =>
    (Config.read files path).mapError fun e => ("Failed to load config " ++ path) :: configChain e

/-- An engine over the resources under the root. -/
def makeEngine (files : FileTree) (a : CommonArgs) : Except (List String) Engine := do
  let config ← loadConfig files a
  (Engine.build config { resources := .directory a.root, files := files }).mapError fun e =>
    "Failed to create engine" :: errorChain e

def driveChain (e : DriveError) : List String :=
  match e with
  | .engine e => errorChain e
  | e => [e.message]

def linesText (l : List String) : String :=
  String.join (l.map (· ++ "\n"))

/-- Writes the report of a run where it is asked for. -/
def putReport (files : FileTree) (a : RunArgs) (r : RunReport) :
    FileTree × String × Except (List String) Unit :=
  match a.report with
  | none => (files, "", .ok ())
  | some "-" => (files, r.text ++ "\n", .ok ())
  | some path =>
    match files.write path r.text.toUTF8 with
    | (files, .ok ()) => (files, "", .ok ())
    | (files, .error e) => (files, "", .error ["Failed to write report " ++ path, e.message])

/-- Plays a script to its end. -/
def run (files : FileTree) (a : RunArgs) : Outcome :=
  match makeEngine files a.toCommonArgs with
  | .error chain => ⟨files, "", .error chain, false⟩
  | .ok e =>
    match e.preloadAndPlay a.script with
    | (_, .error err) =>
      ⟨files, "", .error (("Failed to start `" ++ a.script ++ "`") :: errorChain err),
        err.isTooLong⟩
    | (e, .ok ()) =>
      let (d, result) :=
        e.drive a.script ⟨a.choose, a.maxTicks, a.tick * Nanoseconds.perMillisecond⟩
      let shown := if a.quiet || a.report = some "-" then "" else linesText d.shown
      match result with
      | .error err => ⟨files, shown, .error (driveChain err), err.isTooLong⟩
      | .ok () =>
        let (files, text, written) := putReport files a d.report
        let unfinished := "`" ++ a.script ++ "` was still playing after " ++
          Decimal.digitsText d.report.ticks ++ " ticks"
        let result := match written with
          | .error chain => .error chain
          | .ok () => if d.report.finished then .ok () else .error [unfinished]
        ⟨files, shown ++ text, result, false⟩

/-- Checks scripts. -/
def validate (files : FileTree) (a : ValidateArgs) : Outcome :=
  match makeEngine files a.toCommonArgs with
  | .error chain => ⟨files, "", .error chain, false⟩
  | .ok e =>
    let v := e.validate a.scripts
    let number := Decimal.digitsText
    let summary := "Checked " ++ number v.checked ++ " scripts: " ++ number v.failed ++
      " failed, " ++ number v.diagnostics ++ " diagnostics"
    let result :=
      if 0 < v.failed then .error [number v.failed ++ " scripts failed to load"]
      else if a.strict && 0 < v.diagnostics then
        .error [number v.diagnostics ++ " diagnostics (strict mode)"]
      else .ok ()
    ⟨files, linesText (v.shown ++ [summary]), result, v.gaveUp⟩

end Playhead.Headless
