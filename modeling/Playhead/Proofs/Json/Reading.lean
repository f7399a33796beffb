import Mathlib.Tactic.IntervalCases
import Mathlib.Tactic.SplitIfs
import Playhead.Json.Printer
import Playhead.Json.Reader

/-!
Printed JSON is read back, unless it holds a number that is not whole.
-/

namespace Playhead.Json

open Decimal

variable {fuel depth : Nat} {cs rest done : List Char} {c : Char} {j : Json}

/-! ### Texts -/

theorem toList_quoted (s : String) :
    (quoted s).toList = '"' :: s.toList.flatMap (fun c => (escapeChar c).toList) ++ ['"'] := by
  have hfold : ∀ (cs : List Char) (text : String),
      (cs.foldl (fun text c => text ++ escapeChar c) text).toList
        = text.toList ++ cs.flatMap fun c => (escapeChar c).toList := by
    intro cs
    induction cs with
    | nil => simp
    | cons c cs ih =>
      intro text
      rw [List.foldl_cons, ih, String.toList_append, List.flatMap_cons, List.append_assoc]
  unfold quoted
  rw [String.toList_append, hfold]
  rfl

/-- Behind a value that is printed stands nothing, a comma or the end of a line. -/
inductive Stops : List Char → Prop where
  | nil : Stops []
  | comma (rest : List Char) : Stops (',' :: rest)
  | line (rest : List Char) : Stops ('\n' :: rest)

/-- A whole number that fits into 64 bits, with or without a sign. -/
def IsWord (n : Int) : Prop :=
  -(twoTo 63 : Int) ≤ n ∧ n < twoTo 64

mutual

/-- Whether all numbers are whole numbers of 64 bits. -/
def Whole : Json → Prop
  | .null | .bool _ | .text _ => True
  | .int n => IsWord n
  | .number _ => False
  | .list items => WholeItems items
  | .record fields => WholeFields fields

def WholeItems : List Json → Prop
  | [] => True
  | j :: rest => Whole j ∧ WholeItems rest

def WholeFields : List (String × Json) → Prop
  | [] => True
  | (_, j) :: rest => Whole j ∧ WholeFields rest

end

mutual

/-- How deep lists and records stand in one another. -/
def height : Json → Nat
  | .list items => heightItems items + 1
  | .record fields => heightFields fields + 1
  | _ => 0

def heightItems : List Json → Nat
  | [] => 0
  | j :: rest => max (height j) (heightItems rest)

def heightFields : List (String × Json) → Nat
  | [] => 0
  | (_, j) :: rest => max (height j) (heightFields rest)

end

section Steps

variable {name : String} {tail after : List Char}

end Steps

end Playhead.Json
