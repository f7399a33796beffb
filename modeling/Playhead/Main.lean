import Playhead.Headless.Arguments

/-!
The command line: `run` plays a script without a frontend, and `validate` checks scripts. The files
in question are read into a tree first, and the report is written last.
-/

namespace Playhead.Main

open Headless

/-- The names along a path, without its idle parts. -/
def namesOf (path : String) : List String :=
  (Path.parts path).filter fun part => part ≠ "" && part ≠ "." && part ≠ ".."

/-- The place of a path in the tree. A path out of the working directory is put under its names. -/
def placeOf (path : String) : String :=
  if Path.isAbsolute path || (Path.parts path).contains ".." then "/".intercalate (namesOf path)
  else path

def putFile (t : FileTree) (names : List String) (c : FileContent) : FileTree :=
  (t.makeDirectories ("/".intercalate names.dropLast)).1.put names (.file c)

/-- Adds the files under a path. Only the text of scripts is read. -/
partial def addUnder (t : FileTree) (names : List String) (path : String) : IO FileTree := do
  try
    let place ← IO.FS.realPath path
    if ← place.isDir then
      let entries ← place.readDir
      let t := (t.makeDirectories ("/".intercalate names)).1
      entries.foldlM (fun t e => addUnder t (names ++ [e.fileName]) (path ++ "/" ++ e.fileName)) t
    else
      let size := (← place.metadata).byteSize.toNat
      if place.extension == some Resources.scriptExtension && size ≤ Resources.limit path then
        return putFile t names (.bytes (← IO.FS.readBinFile path))
      else return putFile t names (.zeros size)
  catch _ => return t

def addFile (t : FileTree) (path : String) : IO FileTree := do
  try return putFile t (namesOf path) (.bytes (← IO.FS.readBinFile path))
  catch _ => return t

/-- The directory of the user's configuration. -/
def userConfig : IO String := do
  match ← IO.getEnv "XDG_CONFIG_HOME" with
  | some directory => return directory ++ "/reverie"
  | none => return (← IO.getEnv "HOME").getD "" ++ "/.config/reverie"

/-- A request over the places of its paths. -/
def placed : Request → Request
  | .run a => .run { a with
      root := placeOf a.root
      config := a.config.map placeOf
      userConfig := placeOf a.userConfig
      report := a.report.map placeOf }
  | .validate a => .validate { a with
      root := placeOf a.root
      config := a.config.map placeOf
      userConfig := placeOf a.userConfig }

def writeReport (files : FileTree) (path : String) : IO Unit := do
  match files.find (placeOf path) with
  | .ok (.file c) =>
    match Path.parent? path with
    | some "" | none => pure ()
    | some parent => IO.FS.createDirAll parent
    IO.FS.writeBinFile path c.toBytes
  | _ => pure ()

def execute (r : Request) : IO UInt32 := do
  let a := r.common
  let config := a.config.getD (Path.join a.userConfig Config.fileName)
  let files ← addFile (← addUnder .empty (namesOf a.root) a.root) config
  let o := (placed r).perform files
  IO.print o.output
  match r.report? with
  | some path => writeReport o.files path
  | none => pure ()
  if o.gaveUp then
    IO.eprintln "Error: a wait is longer than a clock holds"
    return 101
  match o.result with
  | .ok () => return 0
  | .error chain =>
    IO.eprintln (chainText chain)
    return 1

end Playhead.Main

def main (args : List String) : IO UInt32 := do
  match Playhead.Headless.Request.ofWords (← Playhead.Main.userConfig) args with
  | .error message =>
    IO.eprintln message
    return 2
  | .ok r => Playhead.Main.execute r
