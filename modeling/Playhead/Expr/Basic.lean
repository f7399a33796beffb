import Playhead.Expr.Token
import Playhead.Expr.Value

/-!
Expressions and what can be wrong with them.
-/

namespace Playhead

inductive BinaryOp where
  | add | sub | mul | div | rem
  | eq | ne | lt | le | gt | ge
  | and | or
deriving DecidableEq, Repr

def BinaryOp.sign : BinaryOp → Sign
  | .add => .add
  | .sub => .sub
  | .mul => .mul
  | .div => .div
  | .rem => .rem
  | .eq => .eq
  | .ne => .ne
  | .lt => .lt
  | .le => .le
  | .gt => .gt
  | .ge => .ge
  | .and => .and
  | .or => .or

inductive Expr where
  | literal (v : Value)
  | variable (name : String)
  | not (e : Expr)
  | neg (e : Expr)
  | binary (op : BinaryOp) (l r : Expr)
  | call (function : String) (args : List Expr)
deriving Inhabited

/-- What is wrong with the text of an expression or of assignments. -/
inductive Malformed where
  | scan (e : ScanError)
  | unexpectedToken (t : Token)
  | unexpectedEnd
  | openParenthesis
  | openArguments (function : String)
  | trailing (t : Token)
  | noAssignment (statement : String)
  | trailingInput (statement : String)
  | nothingAssigned
  | oneArgument
  | someArgument

def Malformed.message : Malformed → String
  | .scan e => e.message
  | .unexpectedToken t => "unexpected token " ++ t.describe
  | .unexpectedEnd => "unexpected end of expression"
  | .openParenthesis => "missing `)`"
  | .openArguments f => "missing `)` after arguments of `" ++ f ++ "`"
  | .trailing t => "unexpected trailing " ++ t.describe
  | .noAssignment s => "expected assignment in `" ++ s ++ "`"
  | .trailingInput s => "unexpected trailing input in `" ++ s ++ "`"
  | .nothingAssigned => "no assignments"
  | .oneArgument => "expects exactly one argument"
  | .someArgument => "expects at least one argument"

/-- Why an expression has no value. -/
inductive ExprError where
  | malformed (source : String) (cause : Malformed)
  | unknownVariable (name : String)
  | unknownFunction (name : String)
  | mismatch (operation : String) (left right : ValueKind)
  | divisionByZero

def ExprError.message : ExprError → String
  | .malformed source cause => "invalid expression `" ++ source ++ "`: " ++ cause.message
  | .unknownVariable name => "unknown variable `" ++ name ++ "`"
  | .unknownFunction name => "unknown function `" ++ name ++ "`"
  | .mismatch operation l r =>
    "cannot apply `" ++ operation ++ "` to " ++ l.name ++ " and " ++ r.name
  | .divisionByZero => "division by zero"

end Playhead
