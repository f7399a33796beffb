import Playhead.Json.Basic

/-!
TOML tables while they are read.

Values are closed. A table stays open to what the text may still add to it, which depends on how the
table came to be.
-/

namespace Playhead.Toml

inductive Origin where
  /-- A header of its own. -/
  | header
  /-- A longer header. -/
  | implied
  /-- A key with dots. -/
  | dotted
deriving DecidableEq, Repr

inductive Node where
  | value (j : Json)
  | table (origin : Origin) (fields : List (String × Node))
  /-- An array of tables, whose last one is open. -/
  | tables (closed : List Json) (fields : List (String × Node))
deriving Inhabited

abbrev Fields : Type := List (String × Node)

mutual

def Node.toJson : Node → Json
  | .value j => j
  | .table _ fields => .record (fieldsToJson fields)
  | .tables closed fields => .list (closed ++ [.record (fieldsToJson fields)])

def fieldsToJson : List (String × Node) → List (String × Json)
  | [] => []
  | (k, n) :: rest => (k, n.toJson) :: fieldsToJson rest

end

namespace Fields

def set (fields : Fields) (key : String) (n : Node) : Fields :=
  if fields.any fun e => e.1 = key then
    fields.map fun e => if e.1 = key then (key, n) else e
  else fields ++ [(key, n)]

/-- Opens the table of a header. -/
def openTable : List String → Fields → Option Fields
  | [], _ => none
  | [key], fields =>
    match fields.lookup key with
    | none => some (fields.set key (.table .header []))
    | some (.table .implied inner) => some (fields.set key (.table .header inner))
    | some _ => none
  | key :: path, fields =>
    match fields.lookup key with
    | none => do some (fields.set key (.table .implied (← openTable path [])))
    | some (.table origin inner) => do
      some (fields.set key (.table origin (← openTable path inner)))
    | some (.tables closed inner) => do
      some (fields.set key (.tables closed (← openTable path inner)))
    | some (.value _) => none

/-- Opens a further table of the array of a header. -/
def openElement : List String → Fields → Option Fields
  | [], _ => none
  | [key], fields =>
    match fields.lookup key with
    | none => some (fields.set key (.tables [] []))
    | some (.tables closed inner) =>
      some (fields.set key (.tables (closed ++ [.record (fieldsToJson inner)]) []))
    | some _ => none
  | key :: path, fields =>
    match fields.lookup key with
    | none => do some (fields.set key (.table .implied (← openElement path [])))
    | some (.table origin inner) => do
      some (fields.set key (.table origin (← openElement path inner)))
    | some (.tables closed inner) => do
      some (fields.set key (.tables closed (← openElement path inner)))
    | some (.value _) => none

/-- Adds a value under a key with dots. The table that takes it must be at hand or made by dots;
`fits` says whether the one reached so far is. -/
def assign (j : Json) (fits : Bool) : List String → Fields → Option Fields
  | [], _ => none
  | [key], fields =>
    if fits && (fields.lookup key).isNone then some (fields.set key (.value j)) else none
  | key :: path, fields =>
    match fields.lookup key with
    | none => do some (fields.set key (.table .dotted (← assign j true path [])))
    | some (.table .dotted inner) => do
      some (fields.set key (.table .dotted (← assign j true path inner)))
    | some (.table .implied inner) => do
      some (fields.set key (.table .implied (← assign j false path inner)))
    | some (.tables closed inner) => do
      some (fields.set key (.tables closed (← assign j false path inner)))
    | some _ => none

/-- Adds a value inside the table of a header. -/
def assignAt (j : Json) (key : List String) : List String → Fields → Option Fields
  | [], fields => assign j true key fields
  | name :: header, fields =>
    match fields.lookup name with
    | some (.table origin inner) => do
      some (fields.set name (.table origin (← assignAt j key header inner)))
    | some (.tables closed inner) => do
      some (fields.set name (.tables closed (← assignAt j key header inner)))
    | _ => none

end Fields

end Playhead.Toml
