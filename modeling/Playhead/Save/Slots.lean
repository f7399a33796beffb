import Playhead.Files.Tree
import Playhead.Json.Reader
import Playhead.State.Map

/-!
Save slots: state maps under names, kept in memory or as one file for each slot.
-/

namespace Playhead

inductive SaveError where
  | invalidSlot (slot : String)
  /-- The file system refuses. -/
  | inaccessible (path : String)
  /-- The file is no save. -/
  | malformed (path : String)
  /-- The file is a save of something else. -/
  | foreign (path : String) (scope : StateScope)
  | version (path : String) (found : Nat)
deriving DecidableEq, Repr

/-- What a save file is: its format, its version, its scope and the map. -/
structure SaveFile where
  format : String
  version : Nat
  scope : StateScope
  records : StateMap

namespace SaveFile

def formatName : String := "reverie-save"

def currentVersion : Nat := 1

def scopeName : StateScope → String
  | .global => "Global"
  | .settings => "Settings"
  | .game => "Game"

def scopeOfName? (name : String) : Option StateScope :=
  [StateScope.global, .settings, .game].find? fun s => scopeName s = name

def fieldNames : List String := ["format", "version", "kind", "records"]

def toText (f : SaveFile) : String :=
  Json.pretty <| .record [("format", .text f.format), ("version", .int f.version),
    ("kind", .text (scopeName f.scope)), ("records", .ofMap f.records)]

/-- Whether no field that is read stands twice. -/
def isDistinct : Json → Bool
  | .record fields => fieldNames.all fun name => (fields.filter (·.1 = name)).length ≤ 1
  | _ => true

def ofText? (text : String) : Option SaveFile := do
  let j ← Json.read? text
  if !isDistinct j then none
  else match ← j.fields? fieldNames with
    | [some (.text format), some version, some kind, some records] =>
      let version ← version.below? (Decimal.twoTo 32)
      let scope ← scopeOfName? (← kind.caseName?)
      some ⟨format, version, scope, ← records.sorted.map?⟩
    | _ => none

end SaveFile

def SaveError.message : SaveError → String
  | .invalidSlot slot =>
    "invalid slot name `" ++ slot ++ "` (use letters, digits, `-` and `_`)"
  | .inaccessible path => "failed to access `" ++ path ++ "`"
  | .malformed path => "save file `" ++ path ++ "` is malformed"
  | .foreign path scope =>
    "save file `" ++ path ++ "` is malformed: expected a " ++ SaveFile.formatName ++
      " file holding " ++ scope.name ++ " state"
  | .version path found =>
    "save file `" ++ path ++ "` has unsupported version " ++ Decimal.digitsText found

/-- Where saves are kept: in memory, or under a directory. -/
inductive SaveSlots where
  | memory (slots : ByScope (NameMap StateMap))
  | directory (root : String)

namespace SaveSlots

def inMemory : SaveSlots := .memory (.all .empty)

/-- A slot's name may also be a file's name: at most 64 ASCII letters, digits, `-` and `_`. -/
def isSlot (slot : String) : Bool :=
  slot ≠ "" && slot.utf8ByteSize ≤ 64 &&
    slot.toList.all fun c => c.isAlphanum || c = '-' || c = '_'

def checkSlot (slot : String) : Except SaveError Unit :=
  if isSlot slot then .ok () else .error (.invalidSlot slot)

def scopePath (root : String) (scope : StateScope) : String :=
  Path.join root scope.name

def slotPath (root : String) (scope : StateScope) (slot : String) : String :=
  Path.join (scopePath root scope) (slot ++ ".json")

/-- A save file holds at most this many bytes. -/
def fileLimit : Nat := 64 * mebibyte

def save (files : FileTree) (s : SaveSlots) (scope : StateScope) (slot : String)
    (map : StateMap) : FileTree × SaveSlots × Except SaveError Unit :=
  match checkSlot slot with
  | .error e => (files, s, .error e)
  | .ok () =>
    match s with
    | .memory slots =>
      (files, .memory (slots.set scope ((slots.get scope).insert slot map)), .ok ())
    | .directory root =>
      let path := slotPath root scope slot
      let file : SaveFile := ⟨SaveFile.formatName, SaveFile.currentVersion, scope, map⟩
      match files.write path file.toText.toUTF8 with
      | (files, .ok ()) => (files, s, .ok ())
      | (files, .error _) => (files, s, .error (.inaccessible path))

/-- Reads a save file that must hold a scope. -/
def readFile (files : FileTree) (path : String) (scope : StateScope) :
    Except SaveError StateMap :=
  match files.read path fileLimit with
  | .error _ => .error (.inaccessible path)
  | .ok bytes =>
    match (String.fromUTF8? bytes).bind SaveFile.ofText? with
    | none => .error (.malformed path)
    | some f =>
      if f.format ≠ SaveFile.formatName || f.scope ≠ scope then .error (.foreign path scope)
      else if f.version ≠ SaveFile.currentVersion then .error (.version path f.version)
      else .ok f.records

/-- The map in a slot, if there is one. -/
def load (files : FileTree) (s : SaveSlots) (scope : StateScope) (slot : String) :
    Except SaveError (Option StateMap) := do
  checkSlot slot
  match s with
  | .memory slots => .ok ((slots.get scope).get? slot)
  | .directory root =>
    let path := slotPath root scope slot
    if files.isFile path then (readFile files path scope).map some else .ok none

/-- Empties a slot; tells whether it held a map. -/
def delete (files : FileTree) (s : SaveSlots) (scope : StateScope) (slot : String) :
    FileTree × SaveSlots × Except SaveError Bool :=
  match checkSlot slot with
  | .error e => (files, s, .error e)
  | .ok () =>
    match s with
    | .memory slots =>
      let maps := slots.get scope
      (files, .memory (slots.set scope (maps.erase slot)), .ok (maps.contains slot))
    | .directory root =>
      let path := slotPath root scope slot
      match files.remove path with
      | .ok files => (files, s, .ok true)
      | .error .notFound => (files, s, .ok false)
      | .error _ => (files, s, .error (.inaccessible path))

/-- The slot a file of a scope's directory stands for. -/
def slotOfFile? (name : String) : Option String :=
  match Path.splitName name with
  | (stem, some "json") => if isSlot stem then some stem else none
  | _ => none

/-- The occupied slots of a scope in order. -/
def list (files : FileTree) (s : SaveSlots) (scope : StateScope) :
    Except SaveError (List String) :=
  match s with
  | .memory slots => .ok (slots.get scope).keys
  | .directory root =>
    let path := scopePath root scope
    match files.list path with
    | .ok names => .ok (NameMap.ofList ((names.filterMap slotOfFile?).map fun s => (s, ()))).keys
    | .error .notFound => .ok []
    | .error _ => .error (.inaccessible path)

end SaveSlots

end Playhead
