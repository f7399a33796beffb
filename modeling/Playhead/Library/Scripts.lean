import Playhead.Library.Resource
import Playhead.Script.Document

/-!
The script library: scripts that were read, by name.
-/

namespace Playhead

inductive LibraryError where
  | resource (name : String) (why : ResourceError)
  | script (e : ScriptError)
deriving DecidableEq, Repr

def LibraryError.message : LibraryError → String
  | .resource name why => "script `" ++ name ++ "` could not be loaded: " ++ why.message
  | .script e => e.message

structure ScriptLibrary where
  root : String
  waitByDefault : Bool
  documents : NameMap Document

namespace ScriptLibrary

def empty (root : String) (waitByDefault : Bool) : ScriptLibrary :=
  ⟨root, waitByDefault, .empty⟩

instance : Inhabited ScriptLibrary := ⟨empty "" true⟩

def path (l : ScriptLibrary) (name : String) : String :=
  Resources.scriptPath l.root name

def get? (l : ScriptLibrary) (name : String) : Option Document :=
  l.documents.get? name

def names (l : ScriptLibrary) : List String :=
  l.documents.keys

/-- What scripts are read with and from. -/
structure Source where
  registry : Registry
  files : FileTree
  resources : Resources

/-- Reads a text as a script and keeps it in place of an earlier one of its name. -/
def insert (l : ScriptLibrary) (registry : Registry) (name text : String) :
    Except LibraryError (Document × ScriptLibrary) :=
  match Document.parse registry l.waitByDefault name text with
  | .ok d => .ok (d, { l with documents := l.documents.insert name d })
  | .error e => .error (.script e)

/-- Reads a script from its resource. -/
def reload (l : ScriptLibrary) (source : Source) (name : String) :
    Except LibraryError (Document × ScriptLibrary) :=
  match source.resources.resolve source.files (l.path name) with
  | .error e => .error (.resource name e)
  | .ok r =>
    match r.text with
    | .error e => .error (.resource name e)
    | .ok text => l.insert source.registry name text

/-- A script that was read before, or else is read now. -/
def load (l : ScriptLibrary) (source : Source) (name : String) :
    Except LibraryError (Document × ScriptLibrary) :=
  match l.get? name with
  | some d => .ok (d, l)
  | none => l.reload source name

def erase (l : ScriptLibrary) (name : String) : ScriptLibrary :=
  { l with documents := l.documents.erase name }

end ScriptLibrary

end Playhead
