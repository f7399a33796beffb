import Playhead.Decimal.Shortest

/-!
How a shortest decimal is set out: which numbers are written positionally, whether a whole number
keeps a fraction, and how an exponent looks.
-/

namespace Playhead.Decimal

/-- Decisions of a number format. -/
structure Layout where
  tie : Tie
  /-- Powers of ten of the first digit that are written positionally. -/
  positional : Int → Bool
  /-- Whether a whole number written positionally ends in `.0`. -/
  wholeFraction : Bool
  /-- What stands between the digits and an exponent that is not negative. -/
  exponentMark : String

def digitsText (n : Nat) : String :=
  String.ofList (Nat.toDigits 10 n)

def zeros (n : Nat) : String :=
  String.ofList (List.replicate n '0')

namespace Layout

def positionalText (l : Layout) (d : Numeral) : String :=
  let digits := Nat.toDigits 10 d.digits
  let count := digits.length
  if 0 ≤ d.power then
    String.ofList digits ++ zeros d.power.toNat ++ (if l.wholeFraction then ".0" else "")
  else
    let places := (-d.power).toNat
    if places < count then
      String.ofList (digits.take (count - places)) ++ "." ++
        String.ofList (digits.drop (count - places))
    else
      "0." ++ zeros (places - count) ++ String.ofList digits

def exponentText (l : Layout) (d : Numeral) : String :=
  let digits := Nat.toDigits 10 d.digits
  let leading := d.power + (digits.length - 1 : Nat)
  let mark := if leading < 0 then "e-" else l.exponentMark
  let mantissa := match digits with
    | first :: second :: rest => String.ofList (first :: '.' :: second :: rest)
    | short => String.ofList short
  mantissa ++ mark ++ digitsText leading.natAbs

def text (l : Layout) (d : Numeral) : String :=
  let leading := d.power + ((Nat.toDigits 10 d.digits).length - 1 : Nat)
  if l.positional leading then l.positionalText d else l.exponentText d

/-- A finite number of the format, sign included. -/
def finiteText (l : Layout) (f : BinaryFormat) (negative : Bool) (b : Binary) : String :=
  (if negative then "-" else "") ++ l.text (shortest f l.tie b)

end Layout

end Playhead.Decimal
