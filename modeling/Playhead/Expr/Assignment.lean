import Playhead.Expr.Eval

/-!
Assignments: `name = expression`, or `name += expression` and the like, separated by semicolons
that stand outside quoted texts.
-/

namespace Playhead

inductive AssignOp where
  | set | add | sub | mul | div
deriving DecidableEq, Repr

namespace AssignOp

/-- How the old value and the new one are joined; `=` takes the new one. -/
def binary? : AssignOp → Option BinaryOp
  | .set => none
  | .add => some .add
  | .sub => some .sub
  | .mul => some .mul
  | .div => some .div

def ofSign? : Sign → Option AssignOp
  | .addSet => some .add
  | .subSet => some .sub
  | .mulSet => some .mul
  | .divSet => some .div
  | _ => none

end AssignOp

structure Assignment where
  target : String
  op : AssignOp
  value : Expr


namespace Assignment

/-- The value to store, given the variables and what the target holds. -/
def resolve (a : Assignment) (current : Option Value) (vars : Variables) :
    Except ExprError Value := do
  let value ← a.value.eval vars
  match a.op.binary?, current with
  | none, _ => .ok value
  | some op, some old => Value.apply op old value
  | some _, none => .error (.unknownVariable a.target)

/-- Where a cut at `;` stands: outside quotes, inside them, or after a backslash inside them. -/
inductive QuoteState where
  | outside
  | inside
  | escaped
deriving DecidableEq, Repr

/-- Adds a character in front of the first statement. -/
def consFirst (c : Char) : List (List Char) → List (List Char)
  | [] => [[c]]
  | first :: rest => (c :: first) :: rest

def splitStatements : QuoteState → List Char → List (List Char)
  | _, [] => [[]]
  | .escaped, c :: rest => consFirst c (splitStatements .inside rest)
  | .outside, c :: rest =>
    if c = ';' then [] :: splitStatements .outside rest
    else consFirst c (splitStatements (if c = '"' then .inside else .outside) rest)
  | .inside, c :: rest =>
    consFirst c (splitStatements
      (if c = '\\' then .escaped else if c = '"' then .outside else .inside) rest)

/-- The two sides of the first `=` that is no part of a comparison. -/
def splitAtEquals (previous : Char) : List Char → Option (List Char × List Char)
  | [] => none
  | c :: rest =>
    if c = '=' && rest.head? != some '=' && !"=!<>".toList.contains previous then some ([], rest)
    else (splitAtEquals c rest).map fun r => (c :: r.1, r.2)

def isName : List Char → Bool
  | [] => false
  | c :: rest => Token.startsName c && rest.all Token.continuesName

/-- Name and expression of an assignment with a plain `=`. -/
def plain? (statement : List Char) : Option (List Char × List Char) :=
  match splitAtEquals ' ' statement with
  | some (left, right) =>
    let name := Text.trim left
    if isName name then some (name, right) else none
  | none => none

/-- An assignment that joins the old value with a new one. -/
def compound (statement : List Char) : Except Malformed Assignment := do
  let missing := Malformed.noAssignment (String.ofList statement)
  match ← Expr.scanTokens statement with
  | .name target :: .sign s :: rest =>
    match AssignOp.ofSign? s with
    | none => .error missing
    | some op => do
      let (value, rest) ← Expr.takeTokens rest
      if rest.isEmpty then .ok ⟨target, op, value⟩
      else .error (.trailingInput (String.ofList statement))
  | _ => .error missing

/-- Reads one statement of the text `source`. -/
def parseStatement (source : String) (statement : List Char) : Except ExprError Assignment :=
  match plain? statement with
  | some (name, right) =>
    (Expr.parse (String.ofList right)).map fun e => ⟨String.ofList name, .set, e⟩
  | none => (compound statement).mapError (.malformed source)

def parseStatements (source : String) :
    List (List Char) → Except ExprError (List Assignment)
  | [] => .ok []
  | s :: rest => do
    let a ← parseStatement source s
    let more ← parseStatements source rest
    .ok (a :: more)

/-- The statements of a text that are not blank. -/
def statements (source : String) : List (List Char) :=
  ((splitStatements .outside source.toList).map Text.trim).filter fun s => !s.isEmpty

/-- Reads a text as assignments, at least one. -/
def parseAll (source : String) : Except ExprError (List Assignment) := do
  match ← parseStatements source (statements source) with
  | [] => .error (.malformed source .nothingAssigned)
  | all => .ok all

end Assignment

end Playhead
