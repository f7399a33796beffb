import Playhead.Decimal.Reader
import Playhead.Text.Basic

/-!
Waits for input, for a time, or for both.
-/

namespace Playhead

/-- Time spans are whole nanoseconds. -/
abbrev Nanoseconds : Type := Nat

namespace Nanoseconds

def perSecond : Nat := 1000000000

def perMillisecond : Nat := 1000000

end Nanoseconds

structure Wait where
  /-- Whether the wait ends in an input wait. -/
  input : Bool
  time : Option Nanoseconds
deriving DecidableEq, Repr, Inhabited

inductive WaitError where
  | invalid
  /-- The time is `2 ^ 64` seconds or more, which no clock holds. -/
  | tooLong
deriving DecidableEq, Repr

namespace Wait

/-- The whole nanoseconds nearest to a number of seconds, halves to even. -/
def nanoseconds (seconds : Float) : Except WaitError Nanoseconds :=
  match Decimal.classifyFloat seconds with
  | .finite negative b =>
    if negative && b.mantissa != 0 then .error .invalid
    else
      let (num, den) := if 0 ≤ b.power then (b.mantissa * Decimal.twoTo b.power.toNat, 1)
        else (b.mantissa, Decimal.twoTo (-b.power).toNat)
      if num / den < Decimal.twoTo 64 then
        .ok (Decimal.Binary.divNearest (num * Nanoseconds.perSecond) den)
      else .error .tooLong
  | _ => .error .invalid

/-- Reads `i`, a number of seconds, or `i` and a number of seconds. -/
def parse (text : String) : Except WaitError Wait :=
  let cs := Text.trim text.toList
  let input := cs.head? = some 'i'
  let rest := if input then cs.drop 1 else cs
  if rest.isEmpty then if input then .ok ⟨true, none⟩ else .error .invalid
  else match Decimal.float? rest with
    | none => .error .invalid
    | some seconds => (nanoseconds seconds).map fun t => ⟨input, some t⟩

end Wait

end Playhead
