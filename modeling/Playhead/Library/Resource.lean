import Playhead.Files.Tree
import Playhead.Text.Basic

/-!
Resources: the texts and other data that scripts name by path.

They lie in memory or under a directory. A path under a directory cannot lead out of it.
-/

namespace Playhead

inductive ResourceError where
  | notFound (path : String)
  | invalidPath (path : String)
  | notText (path : String)
  | unreadable (path : String) (why : FileError)
deriving DecidableEq, Repr

def ResourceError.message : ResourceError → String
  | .notFound path => "resource `" ++ path ++ "` not found"
  | .invalidPath path =>
    "resource path `" ++ path ++ "` is not a relative path inside the resource root"
  | .notText path => "resource `" ++ path ++ "` is not valid UTF-8 text"
  | .unreadable path why => "failed to read resource `" ++ path ++ "`: " ++ why.message

structure Resource where
  path : String
  data : ByteArray

def Resource.text (r : Resource) : Except ResourceError String :=
  match String.fromUTF8? r.data with
  | some s => .ok s
  | none => .error (.notText r.path)

/-- Where resources lie. -/
inductive Resources where
  | memory (entries : NameMap ByteArray)
  | directory (root : String)

namespace Resources

def scriptExtension : String := "rvs"

/-- Scripts are shorter than other resources may be. -/
def limit (path : String) : Nat :=
  if Path.extension? path = some scriptExtension then 8 * mebibyte else 256 * mebibyte

/-- The path of a script of a name. -/
def scriptPath (root name : String) : String :=
  let root := String.ofList (Text.dropEndWhile (· = '/') root.toList)
  (if root = "" then name else root ++ "/" ++ name) ++ "." ++ scriptExtension

def isInside (path : String) : Bool :=
  path ≠ "" && (Path.components path).all fun c => c matches .name _ | .current

/-- The file of a resource under a directory. -/
def filePath (root path : String) : Except ResourceError String :=
  if isInside path then .ok (Path.join root path) else .error (.invalidPath path)

def resolve (files : FileTree) (r : Resources) (path : String) : Except ResourceError Resource :=
  match r with
  | .memory entries =>
    match entries.get? path with
    | some data => .ok ⟨path, data⟩
    | none => .error (.notFound path)
  | .directory root => do
    let file ← filePath root path
    if files.isFile file then
      match files.read file (limit path) with
      | .ok data => .ok ⟨path, data⟩
      | .error e => .error (.unreadable path e)
    else .error (.notFound path)

def contains (files : FileTree) (r : Resources) (path : String) : Bool :=
  match r with
  | .memory entries => entries.contains path
  | .directory root =>
    match filePath root path with
    | .ok file => files.isFile file
    | .error _ => false

end Resources

end Playhead
