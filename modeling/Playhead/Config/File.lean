import Playhead.Config.Fields
import Playhead.Files.Tree
import Playhead.Toml.Reader

/-!
Configuration files in TOML.
-/

namespace Playhead.Config

def fieldText (e : String × Json) : String :=
  let value := match e.2 with
    | .text s => Toml.quote s
    | j => j.compact
  e.1 ++ " = " ++ value ++ "\n"

def sectionText (e : String × List (String × Json)) : String :=
  "[" ++ e.1 ++ "]\n" ++ String.join (e.2.map fieldText)

/-- The text of a configuration, every field of it. -/
def toText (c : Config) : String :=
  "\n".intercalate (c.sections.map sectionText)

def ofText (text : String) : Except ConfigError Config := do
  match (Toml.read? text).bind ofJson? with
  | none => .error .malformed
  | some c =>
    c.check
    .ok c

def read (files : FileTree) (path : String) : Except ConfigError Config :=
  match files.find path with
  | .ok (.file c) =>
    match String.fromUTF8? c.toBytes with
    | some text => ofText text
    | none => .error (.unreadable path)
  | _ => .error (.unreadable path)

def fileName : String := "config.toml"

/-- The configuration in a directory. One that is missing or refused counts as the default. -/
def load (files : FileTree) (directory : String) : Config :=
  match read files (Path.join directory fileName) with
  | .ok c => c
  | .error _ => {}

def save (files : FileTree) (directory : String) (c : Config) :
    FileTree × Except ConfigError Unit :=
  let path := Path.join directory fileName
  match files.write path c.toText.toUTF8 with
  | (files, .ok ()) => (files, .ok ())
  | (files, .error _) => (files, .error (.unreadable path))

end Playhead.Config
