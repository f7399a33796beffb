import Playhead.Decimal.Layout
import Playhead.Json.Basic

/-!
JSON text, compact or indented by two spaces.
-/

namespace Playhead.Json

open Decimal

/-- Doubles are written with the fewest digits that read back, whole ones with `.0`, and with an
exponent from `1e+16` up and from `1e-6` down. -/
def numberLayout : Layout where
  tie := .even
  positional e := -6 < e && e < 16
  wholeFraction := true
  exponentMark := "e+"

def numberText (x : Float) : String :=
  match classifyFloat x with
  | .finite negative b => numberLayout.finiteText .double negative b
  | _ => "null"

/-- The decimal of the single-precision number nearest to a quotient. -/
def singleText (num den : Nat) : String :=
  match Binary.round? .single num den with
  | some b => numberLayout.finiteText .single false b
  | none => "null"

def intText (n : Int) : String :=
  (if n < 0 then "-" else "") ++ digitsText n.natAbs

/-- The last `count` digits of a number in lower-case hexadecimal, zeros in front. -/
def hexText (count n : Nat) : String :=
  let digits := Nat.toDigits 16 n
  String.ofList (List.replicate (count - digits.length) '0' ++ digits)

def escapeChar (c : Char) : String :=
  if c = '"' then "\\\""
  else if c = '\\' then "\\\\"
  else if c = '\n' then "\\n"
  else if c = '\r' then "\\r"
  else if c = '\t' then "\\t"
  else if c.toNat = 0x08 then "\\b"
  else if c.toNat = 0x0C then "\\f"
  else if c.toNat < 0x20 then "\\u" ++ hexText 4 c.toNat
  else String.singleton c

def quoted (s : String) : String :=
  s.toList.foldl (fun text c => text ++ escapeChar c) "\"" ++ "\""

mutual

def compact : Json → String
  | .null => "null"
  | .bool b => if b then "true" else "false"
  | .int n => intText n
  | .number x => numberText x
  | .text s => quoted s
  | .list items => "[" ++ String.intercalate "," (compactItems items) ++ "]"
  | .record fields => "\x7b" ++ String.intercalate "," (compactFields fields) ++ "\x7d"

def compactItems : List Json → List String
  | [] => []
  | j :: rest => compact j :: compactItems rest

def compactFields : List (String × Json) → List String
  | [] => []
  | (k, j) :: rest => (quoted k ++ ":" ++ compact j) :: compactFields rest

end

def indent (depth : Nat) : String :=
  String.ofList (List.replicate (2 * depth) ' ')

/-- Items on lines of their own between two brackets. -/
def block (depth : Nat) (opening closing : String) (items : List String) : String :=
  if items.isEmpty then opening ++ closing
  else
    let line := "\n" ++ indent (depth + 1)
    opening ++ line ++ String.intercalate ("," ++ line) items ++ "\n" ++ indent depth ++ closing

mutual

def prettyAt (depth : Nat) : Json → String
  | .list items => block depth "[" "]" (prettyItems (depth + 1) items)
  | .record fields => block depth "\x7b" "\x7d" (prettyFields (depth + 1) fields)
  | .null => "null"
  | .bool b => if b then "true" else "false"
  | .int n => intText n
  | .number x => numberText x
  | .text s => quoted s

def prettyItems (depth : Nat) : List Json → List String
  | [] => []
  | j :: rest => prettyAt depth j :: prettyItems depth rest

def prettyFields (depth : Nat) : List (String × Json) → List String
  | [] => []
  | (k, j) :: rest => (quoted k ++ ": " ++ prettyAt depth j) :: prettyFields depth rest

end

def pretty (j : Json) : String :=
  prettyAt 0 j

end Playhead.Json
