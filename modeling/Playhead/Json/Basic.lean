import Playhead.Decimal.Binary
import Playhead.NameMap

/-!
JSON values.

Whole numbers stay apart from floating-point ones, since the two are written differently. The
fields of a record stand in the order in which they are written; `ofMap` lists them by name.
-/

namespace Playhead

inductive Json where
  | null
  | bool (b : Bool)
  | int (n : Int)
  | number (x : Float)
  | text (s : String)
  | list (items : List Json)
  | record (fields : List (String × Json))
deriving Inhabited

namespace Json

def ofMap (m : NameMap Json) : Json :=
  .record m.entries

/-- A record with its fields in the order of their names. -/
def ofFields (fields : List (String × Json)) : Json :=
  .ofMap (.ofList fields)

/-- JSON has no text for a number that is not finite: it becomes `null`. -/
def ofFloat (x : Float) : Json :=
  if x.isFinite then .number x else .null

def ofOption {α : Type} (f : α → Json) : Option α → Json
  | some a => f a
  | none => .null

def ofStrings (l : List String) : Json :=
  .list (l.map .text)

def field? (name : String) : Json → Option Json
  | .record fields => NameMap.find? name fields
  | _ => none

def text? : Json → Option String
  | .text s => some s
  | _ => none

def bool? : Json → Option Bool
  | .bool b => some b
  | _ => none

def int? : Json → Option Int
  | .int n => some n
  | _ => none

def nat? : Json → Option Nat
  | .int n => if 0 ≤ n then some n.toNat else none
  | _ => none

/-- The double nearest to an integer. -/
def floatOfInt (n : Int) : Float :=
  Decimal.nearestFloat (n < 0) n.natAbs 1

/-- Any number as a double. -/
def float? : Json → Option Float
  | .int n => some (floatOfInt n)
  | .number x => some x
  | _ => none

def list? : Json → Option (List Json)
  | .list items => some items
  | _ => none

def record? : Json → Option (List (String × Json))
  | .record fields => some fields
  | _ => none

mutual

/-- Orders the fields of every record; of two fields of one name the later stays. -/
def sorted : Json → Json
  | .list items => .list (sortedItems items)
  | .record fields => .ofFields (sortedFields fields)
  | j => j

def sortedItems : List Json → List Json
  | [] => []
  | j :: rest => sorted j :: sortedItems rest

def sortedFields : List (String × Json) → List (String × Json)
  | [] => []
  | (k, j) :: rest => (k, sorted j) :: sortedFields rest

end

end Json

end Playhead
