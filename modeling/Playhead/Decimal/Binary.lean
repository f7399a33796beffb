/-!
Binary floating-point numbers as exact integers and powers of two.

A format keeps `precision` bits of a number and no power of two below `lowest`. Rounding a quotient
of natural numbers goes to the nearest number of the format, halves to the even neighbour.
-/

namespace Playhead.Decimal

def twoTo (n : Nat) : Nat :=
  Nat.pow 2 n

def tenTo (n : Nat) : Nat :=
  Nat.pow 10 n

/-- Sizes of a binary floating-point format. -/
structure BinaryFormat where
  precision : Nat
  exponentBits : Nat

namespace BinaryFormat

def double : BinaryFormat := ⟨53, 11⟩

def single : BinaryFormat := ⟨24, 8⟩

/-- Power of two of the last bit of the smallest numbers. -/
def lowest (f : BinaryFormat) : Int :=
  3 - (twoTo (f.exponentBits - 1) : Int) - (f.precision : Int)

/-- Power of two of the last bit of the largest numbers. -/
def highest (f : BinaryFormat) : Int :=
  (twoTo (f.exponentBits - 1) : Int) - (f.precision : Int)

end BinaryFormat

/-- A number `mantissa * 2 ^ power` that is not negative. -/
structure Binary where
  mantissa : Nat
  power : Int
deriving DecidableEq, Repr

namespace Binary

/-- A biased exponent and a fraction as they stand in the bits of a finite number. -/
def ofFields (f : BinaryFormat) (biased fraction : Nat) : Binary :=
  if biased = 0 then ⟨fraction, f.lowest⟩
  else ⟨twoTo (f.precision - 1) + fraction, f.lowest + (biased - 1 : Nat)⟩

/-- The biased exponent and the fraction of a number of the format, side by side. -/
def toFields (f : BinaryFormat) (b : Binary) : Nat :=
  let hidden := twoTo (f.precision - 1)
  if b.mantissa < hidden then b.mantissa
  else ((b.power - f.lowest).toNat + 1) * hidden + (b.mantissa - hidden)

/-- Quotient to the nearest natural number, halves to even. -/
def divNearest (num den : Nat) : Nat :=
  let q := num / den
  let r := num % den
  if 2 * r < den then q
  else if den < 2 * r then q + 1
  else if q % 2 = 0 then q else q + 1

/-- The number of the format nearest to `num / den`; past the largest one there is none. -/
def round? (f : BinaryFormat) (num den : Nat) : Option Binary :=
  if num = 0 then some ⟨0, f.lowest⟩ else
  let scaled (power : Int) : Nat × Nat :=
    if 0 ≤ power then (num, den * twoTo power.toNat) else (num * twoTo (-power).toNat, den)
  let guess : Int := (num.log2 : Int) - den.log2 - f.precision
  let (n, d) := scaled guess
  let power := max f.lowest (if n / d < twoTo f.precision then guess else guess + 1)
  let (n, d) := scaled power
  let m := divNearest n d
  let b : Binary := if m < twoTo f.precision then ⟨m, power⟩ else ⟨m / 2, power + 1⟩
  if b.power ≤ f.highest then some b else none

end Binary

/-- What the bits of a floating-point number stand for. -/
inductive FloatClass where
  | finite (negative : Bool) (magnitude : Binary)
  | infinite (negative : Bool)
  | notANumber
deriving DecidableEq, Repr

/-- Reads the bits of a number of the format, sign first. -/
def classify (f : BinaryFormat) (bits : Nat) : FloatClass :=
  let fractionBits := f.precision - 1
  let fraction := bits % twoTo fractionBits
  let biased := bits / twoTo fractionBits % twoTo f.exponentBits
  let negative := bits / twoTo (fractionBits + f.exponentBits) % 2 == 1
  if biased = twoTo f.exponentBits - 1 then
    if fraction = 0 then .infinite negative else .notANumber
  else .finite negative (.ofFields f biased fraction)

def classifyFloat (x : Float) : FloatClass :=
  classify .double x.toBits.toNat

/-- The double nearest to `num / den`, infinite past the largest one. -/
def nearestFloat (negative : Bool) (num den : Nat) : Float :=
  let sign := if negative then twoTo 63 else 0
  match Binary.round? .double num den with
  | some b => Float.ofBits (UInt64.ofNat (sign + b.toFields .double))
  | none => Float.ofBits (UInt64.ofNat (sign + 0x7FF * twoTo 52))

/-- The whole part of a finite number, and zero for all others. -/
def truncate (x : Float) : Int :=
  match classifyFloat x with
  | .finite negative b =>
    let n := if 0 ≤ b.power then b.mantissa * twoTo b.power.toNat
      else b.mantissa / twoTo (-b.power).toNat
    if negative then -(n : Int) else n
  | _ => 0

/-- Remainder of `a / b` for magnitudes, computed on a common power of two. -/
def Binary.remainder (a b : Binary) : Binary :=
  let power := min a.power b.power
  let scaled (x : Binary) : Nat := x.mantissa * twoTo (x.power - power).toNat
  ⟨scaled a % scaled b, power⟩

/-- A magnitude with a sign as a double. -/
def signedFloat (negative : Bool) (b : Binary) : Float :=
  if 0 ≤ b.power then nearestFloat negative (b.mantissa * twoTo b.power.toNat) 1
  else nearestFloat negative b.mantissa (twoTo (-b.power).toNat)

/-- The remainder of the division that rounds toward zero; it has the sign of the dividend. -/
def floatRemainder (a b : Float) : Float :=
  match classifyFloat a, classifyFloat b with
  | .finite negative x, .finite _ y =>
    if y.mantissa = 0 then 0.0 / 0.0 else signedFloat negative (x.remainder y)
  | .finite _ _, .infinite _ => a
  | _, _ => 0.0 / 0.0

end Playhead.Decimal
