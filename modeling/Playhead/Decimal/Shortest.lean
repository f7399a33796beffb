import Playhead.Decimal.Binary

/-!
The shortest decimal that reads back as a given binary number.

The reals that round to a number of a format form an interval around it. Of all decimals in the
interval one with the fewest digits is chosen, and of those the one nearest to the number.
-/

namespace Playhead.Decimal

/-- Which of two decimals equally near to a number is chosen. -/
inductive Tie where
  | even
  | up
deriving DecidableEq, Repr

/-- The number `digits * 10 ^ power`. -/
structure Numeral where
  digits : Nat
  power : Int
deriving DecidableEq, Repr

namespace Numeral

def dropZeros : Nat → Nat → Int → Numeral
  | 0, digits, power => ⟨digits, power⟩
  | fuel + 1, digits, power =>
    if digits % 10 = 0 then dropZeros fuel (digits / 10) (power + 1) else ⟨digits, power⟩

/-- The same number without zeros at the end of its digits. -/
def trimZeros (d : Numeral) : Numeral :=
  if d.digits = 0 then ⟨0, 0⟩ else dropZeros (Nat.toDigits 10 d.digits).length d.digits d.power

end Numeral

/-- The reals that round to a number, in quarters of its last bit: `low`, `value` and `high` over
`scale`, the ends included when `closed`. -/
structure Interval where
  low : Nat
  value : Nat
  high : Nat
  scale : Nat
  closed : Bool
deriving Repr

/-- Below a power of two the numbers of a format lie twice as dense. -/
def Interval.around (f : BinaryFormat) (b : Binary) : Interval :=
  let below := if b.mantissa = twoTo (f.precision - 1) && f.lowest < b.power then 1 else 2
  let up := if 0 ≤ b.power then twoTo b.power.toNat else 1
  let scale := if 0 ≤ b.power then 4 else 4 * twoTo (-b.power).toNat
  { low := (4 * b.mantissa - below) * up
    value := 4 * b.mantissa * up
    high := (4 * b.mantissa + 2) * up
    scale := scale
    closed := b.mantissa % 2 == 0 }

/-- The power of ten of the first digit of `num / den`. -/
def leadingPower (num den : Nat) : Int :=
  if den ≤ num then (Nat.toDigits 10 (num / den)).length - 1
  else
    let inverse := (den + num - 1) / num
    0 - (Nat.toDigits 10 (inverse - 1)).length

/-- The decimal of the grid `10 ^ power` that lies in the interval and nearest to its value. -/
def Interval.onGrid? (i : Interval) (tie : Tie) (power : Int) : Option Numeral :=
  let up := if 0 ≤ power then tenTo power.toNat else 1
  let down := if 0 ≤ power then 1 else tenTo (-power).toNat
  let unit := i.scale * up
  let value := i.value * down
  let contains (digits : Nat) : Bool :=
    let x := digits * unit
    if i.closed then i.low * down ≤ x && x ≤ i.high * down
    else i.low * down < x && x < i.high * down
  let floor := value / unit
  let rest := value % unit
  let upper :=
    if 2 * rest = unit then tie == .up || floor % 2 == 1 else unit < 2 * rest
  match contains floor, contains (floor + 1) with
  | false, false => none
  | true, false => some ⟨floor, power⟩
  | false, true => some ⟨floor + 1, power⟩
  | true, true => some ⟨if upper then floor + 1 else floor, power⟩

def Interval.search (i : Interval) (tie : Tie) (leading : Int) : Nat → Nat → Numeral
  | 0, count => ⟨i.value / i.scale, count⟩
  | fuel + 1, count =>
    match i.onGrid? tie (leading - count) with
    | some d => d
    | none => i.search tie leading fuel (count + 1)

/-- The shortest decimal that reads back as `b`. Seventeen digits tell doubles apart. -/
def shortest (f : BinaryFormat) (tie : Tie) (b : Binary) : Numeral :=
  if b.mantissa = 0 then ⟨0, 0⟩
  else
    let i := Interval.around f b
    (i.search tie (leadingPower i.value i.scale) 17 0).trimZeros

end Playhead.Decimal
