import Playhead.Decimal.Reader
import Playhead.Json.Basic
import Playhead.Text.Basic

/-!
JSON pointers: places inside a value, written as the names and indices on the way to them.
-/

namespace Playhead.Json

/-- A step of a pointer; `~1` stands for a slash and `~0` for a tilde. -/
def pointerStep : List Char → List Char
  | '~' :: '1' :: rest => '/' :: pointerStep rest
  | '~' :: '0' :: rest => '~' :: pointerStep rest
  | c :: rest => c :: pointerStep rest
  | [] => []

/-- The steps of a pointer, which is empty or starts with a slash. -/
def pointerSteps? (text : String) : Option (List String) :=
  match Text.pieces '/' text.toList with
  | [[]] => some []
  | [] :: steps => some (steps.map fun s => String.ofList (pointerStep s))
  | _ => none

/-- An index, without a sign or a leading zero. -/
def pointerIndex? (step : String) : Option Nat :=
  let cs := step.toList
  if cs.isEmpty || !cs.all Char.isDigit || (cs.head? = some '0' && 1 < cs.length) then none
  else some (Decimal.natOfDigits cs)

/-- Puts a value at a place that is there. -/
def putAt (value : Json) : List String → Json → Option Json
  | [], _ => some value
  | step :: rest, .list items => do
    let index ← pointerIndex? step
    let old ← items[index]?
    some (.list (items.set index (← putAt value rest old)))
  | step :: rest, .record fields => do
    let old ← NameMap.find? step fields
    let new ← putAt value rest old
    some (.record (fields.map fun e => if e.1 = step then (e.1, new) else e))
  | _ :: _, _ => none

/-- Puts a value at the place of a pointer, if the pointer leads anywhere. -/
def replace? (pointer : String) (value j : Json) : Option Json := do
  putAt value (← pointerSteps? pointer) j

end Playhead.Json
