import Playhead.Decimal.Reader
import Playhead.Json.Basic

/-!
Reading JSON text.

Blanks are space, tab, newline and return. Values nest less than 128 deep. A number with a point
or an exponent, or one past 64 bits, is a double, computed from the first digits that fit into 64
bits and one scaling by a power of ten; a number past the largest double is refused.
-/

namespace Playhead.Json

open Decimal

def skipBlanks (cs : List Char) : List Char :=
  cs.dropWhile fun c => c = ' ' || c = '\t' || c = '\n' || c = '\r'

def hexDigit? (c : Char) : Option Nat :=
  if c.isDigit then some (digitValue c)
  else if 'a' ≤ c && c ≤ 'f' then some (c.toNat - 'a'.toNat + 10)
  else if 'A' ≤ c && c ≤ 'F' then some (c.toNat - 'A'.toNat + 10)
  else none

def hexUnit? : List Char → Option (Nat × List Char)
  | a :: b :: c :: d :: rest => do
    let a ← hexDigit? a
    let b ← hexDigit? b
    let c ← hexDigit? c
    let d ← hexDigit? d
    some (((a * 16 + b) * 16 + c) * 16 + d, rest)
  | _ => none

/-- The character of an escape `\u`, two escapes for one beyond the basic plane. -/
def unicodeEscape? (cs : List Char) : Option (Char × List Char) := do
  let (unit, rest) ← hexUnit? cs
  if unit < 0xD800 || 0xDFFF < unit then some (Char.ofNat unit, rest)
  else if 0xDC00 ≤ unit then none
  else match rest with
    | '\\' :: 'u' :: rest => do
      let (low, rest) ← hexUnit? rest
      if 0xDC00 ≤ low && low ≤ 0xDFFF then
        some (Char.ofNat (0x10000 + (unit - 0xD800) * 0x400 + (low - 0xDC00)), rest)
      else none
    | _ => none

def escape? : List Char → Option (Char × List Char)
  | 'u' :: rest => unicodeEscape? rest
  | 'n' :: rest => some ('\n', rest)
  | 't' :: rest => some ('\t', rest)
  | 'r' :: rest => some ('\r', rest)
  | 'b' :: rest => some ('\x08', rest)
  | 'f' :: rest => some ('\x0c', rest)
  | c :: rest => if c = '"' || c = '\\' || c = '/' then some (c, rest) else none
  | [] => none

/-- A text up to its closing quote, collected in reverse. -/
def textBody : Nat → List Char → List Char → Option (String × List Char)
  | 0, _, _ => none
  | _ + 1, _, [] => none
  | fuel + 1, done, c :: rest =>
    if c = '"' then some (String.ofList done.reverse, rest)
    else if c = '\\' then do
      let (e, rest) ← escape? rest
      textBody fuel (e :: done) rest
    else if c.toNat < 0x20 then none
    else textBody fuel (c :: done) rest

def quotedText (cs : List Char) : Option (String × List Char) :=
  textBody (cs.length + 1) [] cs

/-- Takes digits while the number read stays below `2 ^ 64`; gives their count as well. -/
def takeDigits : Nat → Nat → List Char → Nat × Nat × List Char
  | n, count, [] => (n, count, [])
  | n, count, c :: rest =>
    if c.isDigit && 10 * n + digitValue c < twoTo 64 then
      takeDigits (10 * n + digitValue c) (count + 1) rest
    else (n, count, c :: rest)

/-- Scales by steps of at most `10 ^ 308`, each rounded. -/
def scaleSteps : Nat → Float → Int → Option Float
  | 0, x, _ => some x
  | fuel + 1, x, power =>
    if power.natAbs ≤ 308 then
      if 0 ≤ power then
        let y := x * nearestFloat false (tenTo power.toNat) 1
        if y.isInf then none else some y
      else some (x / nearestFloat false (tenTo power.natAbs) 1)
    else if x == 0.0 then some x
    else if 0 ≤ power then none
    else scaleSteps fuel (x / nearestFloat false (tenTo 308) 1) (power + 308)

def scaled? (negative : Bool) (digits : Nat) (power : Int) : Option Float :=
  (scaleSteps (power.natAbs / 308 + 2) (floatOfInt digits) power).map fun x =>
    if negative then -x else x

/-- The exponent part of a number, if it has one. -/
def exponentPart (negative : Bool) (digits : Nat) (power : Int) (cs : List Char) :
    Option (Float × List Char) :=
  match cs with
  | e :: rest =>
    if e = 'e' || e = 'E' then
      let (down, rest) := splitSign rest
      let run := rest.takeWhile Char.isDigit
      let rest := rest.dropWhile Char.isDigit
      if run.isEmpty then none
      else
        let n := natOfDigits run
        if twoTo 31 ≤ n then
          if digits != 0 && !down then none
          else some (if negative then -0.0 else 0.0, rest)
        else (scaled? negative digits (if down then power - n else power + n)).map (·, rest)
    else (scaled? negative digits power).map (·, cs)
  | [] => (scaled? negative digits power).map (·, [])

/-- The digits after a point. -/
def fractionPart (negative : Bool) (digits : Nat) (power : Int) (cs : List Char) :
    Option (Float × List Char) :=
  let (n, count, rest) := takeDigits digits 0 cs
  let more := rest.takeWhile Char.isDigit
  if count = 0 && more.isEmpty then none
  else exponentPart negative n (power - count) (rest.dropWhile Char.isDigit)

def numberText? (negative : Bool) (cs : List Char) : Option (Json × List Char) :=
  let (n, count, rest) := takeDigits 0 0 cs
  let more := rest.takeWhile Char.isDigit
  let rest := rest.dropWhile Char.isDigit
  if count = 0 || (cs.head? = some '0' && 1 < count + more.length) then none
  else match rest with
    | '.' :: tail => (fractionPart negative n more.length tail).map fun r => (.number r.1, r.2)
    | rest =>
      if rest.head? = some 'e' || rest.head? = some 'E' || !more.isEmpty then
        (exponentPart negative n more.length rest).map fun r => (.number r.1, r.2)
      else if !negative then some (.int n, rest)
      else if n = 0 || twoTo 63 < n then some (.number (-floatOfInt n), rest)
      else some (.int (-n), rest)

def literal? (word : String) (value : Json) (cs : List Char) : Option (Json × List Char) :=
  if word.toList.isPrefixOf cs then some (value, cs.drop word.length) else none

mutual

/-- A value with `depth` levels left for lists and records. -/
def value? : Nat → Nat → List Char → Option (Json × List Char)
  | 0, _, _ => none
  | fuel + 1, depth, cs =>
    match skipBlanks cs with
    | '[' :: rest =>
      if depth ≤ 1 then none
      else match skipBlanks rest with
        | ']' :: rest => some (.list [], rest)
        | rest => (items? fuel (depth - 1) rest).map fun r => (.list r.1, r.2)
    | '\x7b' :: rest =>
      if depth ≤ 1 then none
      else match skipBlanks rest with
        | '\x7d' :: rest => some (.record [], rest)
        | rest => (members? fuel (depth - 1) rest).map fun r => (.record r.1, r.2)
    | '"' :: rest => (quotedText rest).map fun r => (.text r.1, r.2)
    | '-' :: rest => numberText? true rest
    | 'n' :: rest => literal? "null" .null ('n' :: rest)
    | 't' :: rest => literal? "true" (.bool true) ('t' :: rest)
    | 'f' :: rest => literal? "false" (.bool false) ('f' :: rest)
    | rest => numberText? false rest

/-- Items up to the closing bracket. -/
def items? : Nat → Nat → List Char → Option (List Json × List Char)
  | 0, _, _ => none
  | fuel + 1, depth, cs => do
    let (j, rest) ← value? fuel depth cs
    match skipBlanks rest with
    | ',' :: rest =>
      let (more, rest) ← items? fuel depth rest
      some (j :: more, rest)
    | ']' :: rest => some ([j], rest)
    | _ => none

/-- Fields up to the closing brace. -/
def members? : Nat → Nat → List Char → Option (List (String × Json) × List Char)
  | 0, _, _ => none
  | fuel + 1, depth, cs =>
    match skipBlanks cs with
    | '"' :: rest => do
      let (name, rest) ← quotedText rest
      match skipBlanks rest with
      | ':' :: rest =>
        let (j, rest) ← value? fuel depth rest
        match skipBlanks rest with
        | ',' :: rest =>
          let (more, rest) ← members? fuel depth rest
          some ((name, j) :: more, rest)
        | '\x7d' :: rest => some ([(name, j)], rest)
        | _ => none
      | _ => none
    | _ => none

end

/-- Reads a whole text, the fields of records as they are written. -/
def read? (s : String) : Option Json := do
  let cs := s.toList
  let (j, rest) ← value? (2 * cs.length + 2) 128 cs
  if (skipBlanks rest).isEmpty then some j else none

end Playhead.Json
