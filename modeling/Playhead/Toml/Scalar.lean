import Playhead.Decimal.Reader
import Playhead.Json.Basic
import Playhead.Text.Basic

/-!
TOML numbers, truth values, dates and times.

TOML values become JSON values. A date or a time becomes a record of its text, which stands for no
other value.
-/

namespace Playhead.Toml

def isBlank (c : Char) : Bool :=
  c = ' ' || c = '\t'

/-- Control characters, which only line endings and tabs may be. -/
def isControl (c : Char) : Bool :=
  (c.toNat < 0x20 && c ≠ '\t') || c.toNat = 0x7F

/-- Characters of keys that stand without quotes. -/
def isBare (c : Char) : Bool :=
  c.isAlphanum || c = '_' || c = '-'

def isHexDigit (c : Char) : Bool :=
  c.isDigit || ('a' ≤ c && c ≤ 'f') || ('A' ≤ c && c ≤ 'F')

def hexDigitValue (c : Char) : Nat :=
  if c.isDigit then c.toNat - '0'.toNat
  else if 'a' ≤ c then c.toNat - 'a'.toNat + 10
  else c.toNat - 'A'.toNat + 10

/-- Digits with single underscores between them; gives the digits alone. -/
def digits? (isDigit : Char → Bool) (cs : List Char) : Option (List Char) :=
  let groups := Text.pieces '_' cs
  if groups.all fun g => !g.isEmpty && g.all isDigit then some groups.flatten else none

def value (base : Nat) (cs : List Char) : Nat :=
  cs.foldl (fun n c => base * n + hexDigitValue c) 0

/-- Decimal digits of a whole number, which start with no needless zero. -/
def wholeDigits? (cs : List Char) : Option (List Char) :=
  match digits? Char.isDigit cs with
  | some ('0' :: _ :: _) => none
  | result => result

/-- A sign, if there is one, and the rest. -/
def splitSign : List Char → Bool × List Char
  | '-' :: rest => (true, rest)
  | '+' :: rest => (false, rest)
  | cs => (false, cs)

def isOctal (c : Char) : Bool := '0' ≤ c && c ≤ '7'

def isBinary (c : Char) : Bool := c = '0' || c = '1'

def integer? : List Char → Option Int
  | '0' :: 'x' :: rest => (digits? isHexDigit rest).map fun cs => (value 16 cs : Int)
  | '0' :: 'o' :: rest => (digits? isOctal rest).map fun cs => (value 8 cs : Int)
  | '0' :: 'b' :: rest => (digits? isBinary rest).map fun cs => (value 2 cs : Int)
  | cs =>
    let (negative, rest) := splitSign cs
    (wholeDigits? rest).map fun cs =>
      if negative then -(value 10 cs : Int) else (value 10 cs : Int)

/-- The digits after an exponent mark; no mark is an empty exponent. -/
def exponent? : List Char → Option (List Char)
  | [] => some []
  | c :: rest =>
    if c = 'e' || c = 'E' then
      let (negative, rest) := splitSign rest
      (digits? Char.isDigit rest).map fun cs => 'e' :: (if negative then '-' :: cs else cs)
    else none

/-- The digits after a point; no point is no fraction. -/
def fraction? : List Char → Option (List Char)
  | [] => some []
  | '.' :: rest => (digits? Char.isDigit rest).map ('.' :: ·)
  | _ => none

def float? (cs : List Char) : Option Float :=
  let (negative, rest) := splitSign cs
  if rest = ['i', 'n', 'f'] then some (if negative then -1.0 / 0.0 else 1.0 / 0.0)
  else if rest = ['n', 'a', 'n'] then some (0.0 / 0.0)
  else
    let isMark (c : Char) : Bool := c = 'e' || c = 'E'
    let mantissa := rest.takeWhile fun c => !isMark c
    let whole := mantissa.takeWhile (· ≠ '.')
    let tail := mantissa.dropWhile (· ≠ '.')
    let mark := rest.dropWhile fun c => !isMark c
    if tail.isEmpty && mark.isEmpty then none
    else do
      let whole ← wholeDigits? whole
      let tail ← fraction? tail
      let mark ← exponent? mark
      Decimal.float? ((if negative then ['-'] else []) ++ whole ++ tail ++ mark)

/-- A number of so many digits in a range. -/
def field? (count least greatest : Nat) (cs : List Char) : Option Nat :=
  let n := Decimal.natOfDigits cs
  if cs.length = count && cs.all Char.isDigit && least ≤ n && n ≤ greatest then some n else none

def daysIn (year month : Nat) : Nat :=
  if month = 2 then
    if year % 4 = 0 && (year % 100 ≠ 0 || year % 400 = 0) then 29 else 28
  else if month = 4 || month = 6 || month = 9 || month = 11 then 30
  else 31

def isDate (cs : List Char) : Bool :=
  match Text.pieces '-' cs with
  | [y, m, d] =>
    match field? 4 0 9999 y, field? 2 1 12 m with
    | some y, some m => (field? 2 1 (daysIn y m) d).isSome
    | _, _ => false
  | _ => false

/-- Seconds with a fraction of any length. -/
def isSecond (cs : List Char) : Bool :=
  match Text.pieces '.' cs with
  | [s] => (field? 2 0 60 s).isSome
  | [s, f] => (field? 2 0 60 s).isSome && !f.isEmpty && f.all Char.isDigit
  | _ => false

def isClock (cs : List Char) : Bool :=
  match Text.pieces ':' cs with
  | [h, m] => (field? 2 0 23 h).isSome && (field? 2 0 59 m).isSome
  | _ => false

/-- A time of day; seconds may be left out. -/
def isTime (cs : List Char) : Bool :=
  match Text.pieces ':' cs with
  | [h, m, s] => isClock (h ++ ':' :: m) && isSecond s
  | _ => isClock cs

/-- A time of day, with or without an offset. -/
def isOffsetTime (cs : List Char) : Bool :=
  let time := cs.takeWhile fun c => c.isDigit || c = ':' || c = '.'
  match cs.dropWhile fun c => c.isDigit || c = ':' || c = '.' with
  | [] => isTime time
  | ['Z'] | ['z'] => isTime time
  | '+' :: rest | '-' :: rest => isTime time && isClock rest
  | _ => false

def isDateTime (cs : List Char) : Bool :=
  let date := cs.take 10
  match cs.drop 10 with
  | [] => isDate date || isTime cs
  | c :: rest =>
    if c = 'T' || c = 't' || c = ' ' then isDate date && isOffsetTime rest else isTime cs

def scalar? (cs : List Char) : Option Json :=
  if cs = ['t', 'r', 'u', 'e'] then some (.bool true)
  else if cs = ['f', 'a', 'l', 's', 'e'] then some (.bool false)
  else
    match integer? cs with
    | some n => some (.int n)
    | none =>
      match float? cs with
      | some x => some (.number x)
      | none =>
        if isDateTime cs then some (.record [("datetime", .text (String.ofList cs))]) else none

def isScalarChar (c : Char) : Bool :=
  isBare c || c = '+' || c = '.' || c = ':'

/-- A scalar at the start of a text. A date and a time may have a space between them. -/
def readScalar (cs : List Char) : Option (Json × List Char) :=
  let word := cs.takeWhile isScalarChar
  let rest := cs.dropWhile isScalarChar
  match rest with
  | ' ' :: c :: more =>
    if isDate word && c.isDigit then
      let time := (c :: more).takeWhile isScalarChar
      (scalar? (word ++ ' ' :: time)).map fun j => (j, (c :: more).dropWhile isScalarChar)
    else (scalar? word).map fun j => (j, rest)
  | _ => (scalar? word).map fun j => (j, rest)

end Playhead.Toml
