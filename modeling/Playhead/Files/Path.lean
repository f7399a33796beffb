import Playhead.Text.Basic

/-!
Paths of files.

A path is a text. Its parts are the pieces between slashes; its components leave out empty parts
and dots that change nothing.
-/

namespace Playhead.Path

inductive Component where
  | root
  | current
  | parent
  | name (s : String)
deriving DecidableEq, Repr, Inhabited

def parts (path : String) : List String :=
  (Text.pieces '/' path.toList).map String.ofList

def isAbsolute (path : String) : Bool :=
  path.toList.head? = some '/'

/-- The component a part inside a path stands for. -/
def component? (part : String) : Option Component :=
  if part = "" || part = "." then none
  else if part = ".." then some .parent
  else some (.name part)

/-- A leading dot counts as a component, any other does not. -/
def components (path : String) : List Component :=
  if isAbsolute path then .root :: (parts path).filterMap component?
  else
    match parts path with
    | "." :: rest => .current :: rest.filterMap component?
    | all => all.filterMap component?

/-- A path inside another one; an absolute path stands for itself. -/
def join (base path : String) : String :=
  if base = "" || isAbsolute path then path
  else if base.toList.getLast? = some '/' then base ++ path
  else base ++ "/" ++ path

/-- The name the path ends in. -/
def fileName? (path : String) : Option String :=
  match (components path).getLast? with
  | some (.name s) => some s
  | _ => none

/-- A file name cut at its last dot, unless it has none but a first one. -/
def splitName (name : String) : String × Option String :=
  let back := name.toList.reverse
  match back.dropWhile (· ≠ '.') with
  | _ :: stem =>
    if stem.isEmpty then (name, none)
    else (String.ofList stem.reverse, some (String.ofList (back.takeWhile (· ≠ '.')).reverse))
  | [] => (name, none)

def extension? (path : String) : Option String :=
  (fileName? path).bind fun name => (splitName name).2

/-- Drops slashes and dots at the end that change nothing, back to front. -/
def dropIdle : List String → List String
  | part :: rest =>
    if (part = "" || part = ".") && !rest.isEmpty then dropIdle rest else part :: rest
  | [] => []

/-- The path without its last component. -/
def parent? (path : String) : Option String :=
  match (components path).getLast? with
  | none | some .root => none
  | some _ =>
    match dropIdle (parts path).reverse with
    | _ :: rest =>
      let kept := (dropIdle rest).reverse
      some (if isAbsolute path && kept.length ≤ 1 then "/" else "/".intercalate kept)
    | [] => none

/-- The path with another name at its end. -/
def withFileName (path name : String) : String :=
  join ((parent? path).getD "") name

end Playhead.Path
