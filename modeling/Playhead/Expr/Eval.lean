import Playhead.Decimal.Binary
import Playhead.Expr.Parser

/-!
Values of expressions.

An evaluation reads nothing but the expression and the variables; `&&` and `||` leave their right
side alone when the left one decides.
-/

namespace Playhead

/-- What an expression sees of the variables. -/
abbrev Variables : Type := String → Option Value

namespace Value

def mismatch {α : Type} (op : BinaryOp) (l r : Value) : Except ExprError α :=
  .error (.mismatch op.sign.name l.kind r.kind)

/-- Arithmetic on two numbers. -/
def arithmetic (op : BinaryOp) (f : Float → Float → Float) (l r : Value) :
    Except ExprError Value :=
  match l, r with
  | .number a, .number b => .ok (.number (f a b))
  | l, r => mismatch op l r

/-- A division of two numbers, refused when the divisor is zero. -/
def division (op : BinaryOp) (f : Float → Float → Float) (l r : Value) :
    Except ExprError Value :=
  match l, r with
  | .number a, .number b => if b == 0.0 then .error .divisionByZero else .ok (.number (f a b))
  | l, r => mismatch op l r

/-- Numbers add up; a text joins whatever stands on its other side. -/
def add (l r : Value) : Except ExprError Value :=
  match l, r with
  | .number a, .number b => .ok (.number (a + b))
  | .text _, _ | _, .text _ => .ok (.text (l.display ++ r.display))
  | l, r => mismatch .add l r

def compare (op : BinaryOp) (holds : Ordering → Bool) (l r : Value) : Except ExprError Value :=
  match order? l r with
  | some o => .ok (.bool (holds o))
  | none => mismatch op l r

/-- Applies an operator to two values. -/
def apply (op : BinaryOp) (l r : Value) : Except ExprError Value :=
  match op with
  | .eq => .ok (.bool (same l r))
  | .ne => .ok (.bool (!same l r))
  | .add => add l r
  | .sub => arithmetic .sub (· - ·) l r
  | .mul => arithmetic .mul (· * ·) l r
  | .div => division .div (· / ·) l r
  | .rem => division .rem Decimal.floatRemainder l r
  | .lt => compare .lt Ordering.isLT l r
  | .le => compare .le Ordering.isLE l r
  | .gt => compare .gt Ordering.isGT l r
  | .ge => compare .ge Ordering.isGE l r
  | .and => .ok (.bool (l.truthy && r.truthy))
  | .or => .ok (.bool (l.truthy || r.truthy))

def numbers (function : String) : List Value → Except ExprError (List Float)
  | [] => .ok []
  | .number x :: rest => (numbers function rest).map (x :: ·)
  | v :: _ => .error (.mismatch function v.kind .number)

/-- The lesser of two numbers; one that is not a number gives way to the other. -/
def least (a b : Float) : Float :=
  if a.isNaN then b else if b.isNaN then a else if b < a then b else a

def greatest (a b : Float) : Float :=
  if a.isNaN then b else if b.isNaN then a else if a < b then b else a

/-- Functions of one number, and functions that fold any number of them. -/
inductive Function where
  | one (f : Float → Float)
  | fold (f : Float → Float → Float)

def Function.ofName? (name : String) : Option Function :=
  if name = "min" then some (.fold least)
  else if name = "max" then some (.fold greatest)
  else if name = "abs" then some (.one Float.abs)
  else if name = "round" then some (.one Float.round)
  else if name = "floor" then some (.one Float.floor)
  else if name = "ceil" then some (.one Float.ceil)
  else none

def callFunction (name : String) (args : List Value) : Except ExprError Value :=
  match Function.ofName? name with
  | none => .error (.unknownFunction name)
  | some f => do
    let xs ← numbers name args
    match f, xs with
    | .one f, [x] => .ok (.number (f x))
    | .one _, _ => .error (.malformed name .oneArgument)
    | .fold f, x :: xs => .ok (.number (xs.foldl f x))
    | .fold _, [] => .error (.malformed name .someArgument)

end Value

namespace Expr

mutual

def eval (vars : Variables) : Expr → Except ExprError Value
  | .literal v => .ok v
  | .variable name =>
    match vars name with
    | some v => .ok v
    | none => .error (.unknownVariable name)
  | .not e => (eval vars e).map fun v => .bool (!v.truthy)
  | .neg e => do
    match ← eval vars e with
    | .number x => .ok (.number (-x))
    | v => .error (.mismatch Sign.sub.name v.kind v.kind)
  | .binary op l r => do
    let left ← eval vars l
    if op = .and && !left.truthy then .ok (.bool false)
    else if op = .or && left.truthy then .ok (.bool true)
    else do
      let right ← eval vars r
      Value.apply op left right
  | .call function args => do
    let values ← evalAll vars args
    Value.callFunction function values

/-- Values of expressions in order, up to the first failure. -/
def evalAll (vars : Variables) : List Expr → Except ExprError (List Value)
  | [] => .ok []
  | e :: rest => do
    let v ← eval vars e
    let vs ← evalAll vars rest
    .ok (v :: vs)

end

/-- Reads a text as a condition and says whether it holds. -/
def condition (source : String) (vars : Variables) : Except ExprError Bool := do
  let e ← parse source
  let v ← eval vars e
  .ok v.truthy

end Expr

end Playhead
