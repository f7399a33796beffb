import Playhead.Decimal.Layout

/-!
Values of script variables and expressions.
-/

namespace Playhead

inductive Value where
  | bool (b : Bool)
  | number (x : Float)
  | text (s : String)
deriving Inhabited

/-- What a value is called in messages. -/
inductive ValueKind where
  | bool
  | number
  | text
deriving DecidableEq, Repr

def ValueKind.name : ValueKind → String
  | .bool => "boolean"
  | .number => "number"
  | .text => "text"

namespace Value

def kind : Value → ValueKind
  | .bool _ => .bool
  | .number _ => .number
  | .text _ => .text

/-- False, zero and the empty text count as false, all else as true. -/
def truthy : Value → Bool
  | .bool b => b
  | .number x => x != 0.0
  | .text s => s != ""

/-- Numbers are shown positionally, with as many digits as they need to be told apart. -/
def numberLayout : Decimal.Layout where
  tie := .up
  positional _ := true
  wholeFraction := false
  exponentMark := "e"

/-- A zero is shown without its sign. -/
def numberText (x : Float) : String :=
  match Decimal.classifyFloat x with
  | .finite negative b => numberLayout.finiteText .double (negative && b.mantissa != 0) b
  | .infinite negative => if negative then "-inf" else "inf"
  | .notANumber => "NaN"

def display : Value → String
  | .bool b => if b then "true" else "false"
  | .number x => numberText x
  | .text s => s

/-- Equality of values of one kind; numbers compare as numbers. -/
def same : Value → Value → Bool
  | .bool a, .bool b => a == b
  | .number a, .number b => a == b
  | .text a, .text b => a == b
  | _, _ => false

/-- Numbers that compare, and texts by their code points, are ordered. -/
def order? : Value → Value → Option Ordering
  | .number a, .number b =>
    if a < b then some .lt else if b < a then some .gt else if a == b then some .eq else none
  | .text a, .text b => some (if a < b then .lt else if b < a then .gt else .eq)
  | _, _ => none

end Value

end Playhead
