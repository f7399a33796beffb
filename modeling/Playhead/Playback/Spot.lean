import Playhead.Json.Decode
import Playhead.Json.Printer

/-!
Positions in scripts.
-/

namespace Playhead

/-- A command of a script by its index. -/
structure Spot where
  script : String
  index : Nat
deriving DecidableEq, Repr, Inhabited

namespace Spot

def text (s : Spot) : String :=
  s.script ++ "#" ++ Decimal.digitsText s.index

def toJson (s : Spot) : Json :=
  .ofFields [("script", .text s.script), ("index", .int s.index)]

def ofJson? (j : Json) : Option Spot := do
  match ← j.fields? ["script", "index"] with
  | [some (.text script), some index] => some ⟨script, ← index.word?⟩
  | _ => none

end Spot

end Playhead
