import Playhead.Decimal.Binary
import Playhead.Json.Basic

/-!
Reading values of fixed shape out of JSON.

A structure is given as a record, whose other fields do not matter, or as the list of its fields in
order. A field that is absent reads as `none`.
-/

namespace Playhead.Json

/-- The values of the named fields. A list may leave out fields at its end and hold no more. -/
def fields? (names : List String) : Json → Option (List (Option Json))
  | .record fields => some (names.map fun name => NameMap.find? name fields)
  | .list items =>
    if items.length ≤ names.length then
      some (items.map some ++ List.replicate (names.length - items.length) none)
    else none
  | _ => none

/-- A text that may be absent or `null`. -/
def optionalText? : Option Json → Option (Option String)
  | none | some .null => some none
  | some (.text s) => some (some s)
  | _ => none

/-- A whole number below a bound. -/
def below? (bound : Nat) (j : Json) : Option Nat :=
  match j.nat? with
  | some n => if n < bound then some n else none
  | none => none

/-- A whole number of 64 bits. -/
def word? (j : Json) : Option Nat :=
  below? (Decimal.twoTo 64) j

/-- The name of a case without contents, alone or as the one field of a record. -/
def caseName? : Json → Option String
  | .text s => some s
  | .record [(name, .null)] => some name
  | _ => none

/-- A record as a map from names. -/
def map? : Json → Option (NameMap Json)
  | .record fields => some (.ofList fields)
  | _ => none

end Playhead.Json
