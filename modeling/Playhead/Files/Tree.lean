import Playhead.Decimal.Layout
import Playhead.Files.Path
import Playhead.NameMap

/-!
File trees: files and directories by their paths, and what can be read from and written to them.

Writing is atomic. The new contents go to a file beside the old one, which then takes its place.
-/

namespace Playhead

/-- In bytes. -/
def mebibyte : Nat := 1048576

/-- What a file holds. A run of zero bytes is kept as its length. -/
inductive FileContent where
  | bytes (b : ByteArray)
  | zeros (size : Nat)
deriving Inhabited

namespace FileContent

def size : FileContent → Nat
  | .bytes b => b.size
  | .zeros n => n

def toBytes : FileContent → ByteArray
  | .bytes b => b
  | .zeros n => ⟨Array.replicate n 0⟩

end FileContent

inductive FileNode where
  | file (c : FileContent)
  | directory
deriving Inhabited

/-- Why a path leads to nothing. -/
inductive PathError where
  | notFound
  | notDirectory
  | isDirectory
deriving DecidableEq, Repr

/-- Why a file cannot be read or written. -/
inductive FileError where
  | noMetadata (path : String)
  | tooLarge (path : String) (size limit : Nat)
  | unreadable (path : String)
  | noDirectory (path : String)
  | noFileName (path : String)
  | notCreated (path : String)
  | notMoved (path : String)
deriving DecidableEq, Repr

def FileError.message : FileError → String
  | .noMetadata path => "Failed to read file metadata: " ++ path
  | .tooLarge path size limit =>
    "File too large: " ++ path ++ " (" ++ Decimal.digitsText size ++ " bytes, max " ++
      Decimal.digitsText limit ++ " bytes)"
  | .unreadable path => "Failed to read file: " ++ path
  | .noDirectory path => "Failed to create directory: " ++ path
  | .noFileName path => "Path has no file name: " ++ path
  | .notCreated path => "Failed to create file: " ++ path
  | .notMoved path => "Failed to move " ++ path ++ " into place"

/-- All files and directories but the top one, by their names from the top on. -/
structure FileTree where
  nodes : NameMap FileNode
deriving Inhabited

namespace FileTree

def empty : FileTree := ⟨.empty⟩

/-- What lies at the end of a list of names. -/
def node? (t : FileTree) (names : List String) : Option FileNode :=
  if names.isEmpty then some .directory else t.nodes.get? ("/".intercalate names)

def put (t : FileTree) (names : List String) (n : FileNode) : FileTree :=
  ⟨t.nodes.insert ("/".intercalate names) n⟩

/-- Names hold at most 255 bytes and no zero character. -/
def isName (s : String) : Bool :=
  s.utf8ByteSize ≤ 255 && !s.toList.contains '\x00'

/-- The names at which parts lead from a place. All but the last part start in a directory. -/
def follow (t : FileTree) : List String → List String → Except PathError (List String)
  | here, [] => .ok here
  | here, part :: rest =>
    match t.node? here with
    | none => .error .notFound
    | some (.file _) => .error .notDirectory
    | some .directory =>
      if part = "" || part = "." then follow t here rest
      else if part = ".." then
        if here.isEmpty then .error .notFound else follow t here.dropLast rest
      else follow t (here ++ [part]) rest

/-- The place of a path, which need not hold anything yet. -/
def place (t : FileTree) (path : String) : Except PathError (List String) :=
  if path = "" || Path.isAbsolute path then .error .notFound else t.follow [] (Path.parts path)

def find (t : FileTree) (path : String) : Except PathError FileNode := do
  match t.node? (← t.place path) with
  | some n => .ok n
  | none => .error .notFound

def isFile (t : FileTree) (path : String) : Bool :=
  t.find path matches .ok (.file _)

def contains (t : FileTree) (path : String) : Bool :=
  t.find path matches .ok _

/-- Reads a file of at most `limit` bytes. -/
def read (t : FileTree) (path : String) (limit : Nat) : Except FileError ByteArray :=
  match t.find path with
  | .error _ => .error (.noMetadata path)
  | .ok .directory => .error (.unreadable path)
  | .ok (.file c) =>
    if limit < c.size then .error (.tooLarge path c.size limit) else .ok c.toBytes

/-- Makes the directories on the way along parts, as far as they can be made. -/
def makeAlong (t : FileTree) : List String → List String → FileTree × Bool
  | _, [] => (t, true)
  | here, part :: rest =>
    if part = "" || part = "." then makeAlong t here rest
    else if part = ".." then
      if here.isEmpty then (t, false) else makeAlong t here.dropLast rest
    else
      let names := here ++ [part]
      match t.node? names with
      | some .directory => makeAlong t names rest
      | some (.file _) => (t, false)
      | none =>
        if isName part then makeAlong (t.put names .directory) names rest else (t, false)

def makeDirectories (t : FileTree) (path : String) : FileTree × Bool :=
  if path = "" then (t, true)
  else if Path.isAbsolute path then (t, false)
  else t.makeAlong [] (Path.parts path)

/-- Puts a file at a path whose directory is there, unless a directory is in its place. -/
def create (t : FileTree) (path : String) (c : FileContent) : Option FileTree :=
  match t.place path with
  | .error _ => none
  | .ok names =>
    match t.node? names, t.node? names.dropLast with
    | some .directory, _ => none
    | _, some .directory =>
      if isName (names.getLast?.getD "") then some (t.put names (.file c)) else none
    | _, _ => none

/-- Removes a file. -/
def remove (t : FileTree) (path : String) : Except PathError FileTree := do
  let names ← t.place path
  match t.node? names with
  | some (.file _) => .ok ⟨t.nodes.erase ("/".intercalate names)⟩
  | some .directory => .error .isDirectory
  | none => .error .notFound

/-- Puts a file in the place of another one, or where nothing is. -/
def move (t : FileTree) (source target : String) : Option FileTree :=
  match t.find source, t.remove source with
  | .ok (.file c), .ok rest => rest.create target c
  | _, _ => none

/-- Writes a file and the directories above it. -/
def write (t : FileTree) (path : String) (b : ByteArray) : FileTree × Except FileError Unit :=
  let parent := Path.parent? path
  match (parent.map t.makeDirectories).getD (t, true) with
  | (t, false) => (t, .error (.noDirectory (parent.getD "")))
  | (t, true) =>
    match Path.fileName? path with
    | none => (t, .error (.noFileName path))
    | some name =>
      let beside := Path.withFileName path (name ++ ".tmp")
      match t.create beside (.bytes b) with
      | none => (t, .error (.notCreated beside))
      | some t =>
        match t.move beside path with
        | some t => (t, .ok ())
        | none => (t, .error (.notMoved beside))

/-- The rest of a name list after the names of a directory, if it is one name. -/
def childName? (directory : List String) (key : String) : Option String :=
  let above := if directory.isEmpty then "" else "/".intercalate directory ++ "/"
  if above.toList.isPrefixOf key.toList then
    let rest := key.toList.drop above.length
    if rest.contains '/' then none else some (String.ofList rest)
  else none

/-- The names in a directory in order. -/
def list (t : FileTree) (path : String) : Except PathError (List String) := do
  let names ← t.place path
  match t.node? names with
  | some .directory => .ok (t.nodes.keys.filterMap (childName? names))
  | some (.file _) => .error .notDirectory
  | none => .error .notFound

end FileTree

end Playhead
