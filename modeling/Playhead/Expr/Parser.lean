import Playhead.Expr.Basic

/-!
From tokens to expressions.

Binary signs bind in five levels, from `||` over `&&`, comparisons, `+ -` to `* / %`; chains
associate to the left and comparisons do not chain. A rule takes an expression off the front of a
list of tokens. The rule for whole expressions is built from itself one nesting level down, so its
level bounds how deep parentheses may stand; the number of tokens is enough.
-/

namespace Playhead.Expr

abbrev Rule : Type := List Token → Except Malformed (Expr × List Token)

/-- Operands joined by operators of one level, from the left. -/
def chain (op? : Sign → Option BinaryOp) (operand : Rule) : Nat → Expr → Rule
  | fuel + 1, left, .sign s :: rest =>
    match op? s with
    | some op => do
      let (right, rest) ← operand rest
      chain op? operand fuel (.binary op left right) rest
    | none => .ok (left, .sign s :: rest)
  | _, left, tokens => .ok (left, tokens)

def leftChain (op? : Sign → Option BinaryOp) (operand : Rule) : Rule := fun tokens => do
  let (left, rest) ← operand tokens
  chain op? operand rest.length left rest

def orOp? : Sign → Option BinaryOp
  | .or => some .or
  | _ => none

def andOp? : Sign → Option BinaryOp
  | .and => some .and
  | _ => none

def compareOp? : Sign → Option BinaryOp
  | .eq => some .eq
  | .ne => some .ne
  | .lt => some .lt
  | .le => some .le
  | .gt => some .gt
  | .ge => some .ge
  | _ => none

def addOp? : Sign → Option BinaryOp
  | .add => some .add
  | .sub => some .sub
  | _ => none

def mulOp? : Sign → Option BinaryOp
  | .mul => some .mul
  | .div => some .div
  | .rem => some .rem
  | _ => none

/-- At most one comparison. -/
def comparison (operand : Rule) : Rule := fun tokens => do
  let (left, rest) ← operand tokens
  match rest with
  | .sign s :: tail =>
    match compareOp? s with
    | some op => do
      let (right, tail) ← operand tail
      .ok (.binary op left right, tail)
    | none => .ok (left, rest)
  | _ => .ok (left, rest)

/-- Expressions separated by commas, at least one. -/
def arguments (inner : Rule) : Nat → List Token → Except Malformed (List Expr × List Token)
  | 0, tokens => (inner tokens).map fun r => ([r.1], r.2)
  | fuel + 1, tokens => do
    let (e, rest) ← inner tokens
    match rest with
    | .comma :: rest => do
      let (more, rest) ← arguments inner fuel rest
      .ok (e :: more, rest)
    | rest => .ok ([e], rest)

/-- The arguments of a call after its opening parenthesis, which they close. -/
def application (inner : Rule) (function : String) : Rule := fun tokens =>
  match tokens with
  | .closing :: rest => .ok (.call function [], rest)
  | tokens => do
    let (args, rest) ← arguments inner tokens.length tokens
    match rest with
    | .closing :: rest => .ok (.call function args, rest)
    | _ => .error (.openArguments function)

def primary (inner : Rule) : Rule
  | [] => .error .unexpectedEnd
  | .number x :: rest => .ok (.literal (.number x), rest)
  | .text s :: rest => .ok (.literal (.text s), rest)
  | .name s :: rest =>
    if s = "true" then .ok (.literal (.bool true), rest)
    else if s = "false" then .ok (.literal (.bool false), rest)
    else match rest with
      | .opening :: rest => application inner s rest
      | rest => .ok (.variable s, rest)
  | .opening :: rest => do
    let (e, rest) ← inner rest
    match rest with
    | .closing :: rest => .ok (e, rest)
    | _ => .error .openParenthesis
  | t :: _ => .error (.unexpectedToken t)

def unary (inner : Rule) : Rule
  | .sign .not :: rest => (unary inner rest).map fun r => (.not r.1, r.2)
  | .sign .sub :: rest => (unary inner rest).map fun r => (.neg r.1, r.2)
  | tokens => primary inner tokens

/-- An expression whose parentheses hold expressions of the rule `inner`. -/
def level (inner : Rule) : Rule :=
  leftChain orOp? <| leftChain andOp? <| comparison <|
    leftChain addOp? <| leftChain mulOp? <| unary inner

def rule : Nat → Rule
  | 0 => fun _ => .error .unexpectedEnd
  | depth + 1 => level (rule depth)

/-- Takes the longest expression off the front of a list of tokens. -/
def takeTokens : Rule := fun tokens => rule (tokens.length + 1) tokens

/-- Reads all tokens as one expression. -/
def ofTokens (tokens : List Token) : Except Malformed Expr := do
  let (e, rest) ← takeTokens tokens
  match rest with
  | [] => .ok e
  | t :: _ => .error (.trailing t)

def scanTokens (cs : List Char) : Except Malformed (List Token) :=
  (Token.scan cs).mapError .scan

/-- Reads a text as one expression. -/
def parse (source : String) : Except ExprError Expr :=
  (scanTokens source.toList >>= ofTokens).mapError (.malformed source)

end Playhead.Expr
