import Playhead.Decimal.Binary

/-!
Reading decimal text as a double.

A literal is an optional sign and either digits with at most one point and an optional exponent, or
the name of an infinity or of the undefined number. The value is the double nearest to the number
written.
-/

namespace Playhead.Decimal

def digitValue (c : Char) : Nat :=
  c.toNat - '0'.toNat

/-- Value of a run of decimal digits. -/
def natOfDigits (cs : List Char) : Nat :=
  cs.foldl (fun n c => 10 * n + digitValue c) 0

/-- The double nearest to `digits * 10 ^ power`. Far out of range the power alone decides. -/
def scaledFloat (negative : Bool) (digits : Nat) (power : Int) : Float :=
  let size : Int := (Nat.toDigits 10 digits).length
  if digits = 0 then nearestFloat negative 0 1
  else if 400 < power + size then nearestFloat negative (twoTo 1024) 1
  else if power + size < -400 then nearestFloat negative 0 1
  else if 0 ≤ power then nearestFloat negative (digits * tenTo power.toNat) 1
  else nearestFloat negative digits (tenTo (-power).toNat)

/-- A sign in front of a literal, and what follows it. -/
def splitSign : List Char → Bool × List Char
  | '-' :: rest => (true, rest)
  | '+' :: rest => (false, rest)
  | cs => (false, cs)

/-- The exponent of a literal; text after the mantissa that is no exponent is refused. -/
def exponent? : List Char → Option Int
  | [] => some 0
  | e :: rest =>
    if e = 'e' || e = 'E' then
      let (negative, digits) := splitSign rest
      if digits.isEmpty || !digits.all Char.isDigit then none
      else
        let n : Int := natOfDigits digits
        some (if negative then -n else n)
    else none

def unsignedFloat? (negative : Bool) (cs : List Char) : Option Float :=
  let whole := cs.takeWhile Char.isDigit
  let afterWhole := cs.dropWhile Char.isDigit
  let (fraction, rest) := match afterWhole with
    | '.' :: r => (r.takeWhile Char.isDigit, r.dropWhile Char.isDigit)
    | r => ([], r)
  if whole.isEmpty && fraction.isEmpty then none
  else
    (exponent? rest).map fun power =>
      scaledFloat negative (natOfDigits (whole ++ fraction)) (power - fraction.length)

def namedFloat? (negative : Bool) (cs : List Char) : Option Float :=
  let name := String.ofList (cs.map Char.toLower)
  if name = "inf" || name = "infinity" then some (nearestFloat negative (twoTo 1024) 1)
  else if name = "nan" then some (0.0 / 0.0)
  else none

/-- Reads a whole text as a double. -/
def float? (cs : List Char) : Option Float :=
  let (negative, rest) := splitSign cs
  (namedFloat? negative rest).or (unsignedFloat? negative rest)

end Playhead.Decimal
