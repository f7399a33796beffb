import Playhead.Decimal.Layout
import Playhead.Decimal.Reader
import Playhead.Text.Basic
import Playhead.Text.Numeric
import Playhead.Text.Printable

/-!
Tokens of expressions and how a text is cut into them.

The scanner takes one token at a time; what follows a token is shorter than what it was taken from
(`Token.next?`), which bounds the whole scan.
-/

namespace Playhead

/-- Signs of one or two characters. -/
inductive Sign where
  | eq | ne | le | ge | and | or | addSet | subSet | mulSet | divSet
  | lt | gt | add | sub | mul | div | rem | not
deriving DecidableEq, Repr

namespace Sign

/-- Signs of two characters stand before those of one, so that the longest is taken. -/
def all : List Sign :=
  [.eq, .ne, .le, .ge, .and, .or, .addSet, .subSet, .mulSet, .divSet,
   .lt, .gt, .add, .sub, .mul, .div, .rem, .not]

def chars : Sign → List Char
  | .eq => ['=', '=']
  | .ne => ['!', '=']
  | .le => ['<', '=']
  | .ge => ['>', '=']
  | .and => ['&', '&']
  | .or => ['|', '|']
  | .addSet => ['+', '=']
  | .subSet => ['-', '=']
  | .mulSet => ['*', '=']
  | .divSet => ['/', '=']
  | .lt => ['<']
  | .gt => ['>']
  | .add => ['+']
  | .sub => ['-']
  | .mul => ['*']
  | .div => ['/']
  | .rem => ['%']
  | .not => ['!']

def name (s : Sign) : String :=
  String.ofList s.chars

end Sign

inductive Token where
  | number (x : Float)
  | text (s : String)
  | name (s : String)
  | sign (s : Sign)
  | opening
  | closing
  | comma
deriving Inhabited

namespace Token

/-- Numbers in messages are positional between `1e-4` and `1e16`. -/
def numberLayout : Decimal.Layout where
  tie := .up
  positional e := -4 ≤ e && e < 16
  wholeFraction := true
  exponentMark := "e"

def numberText (x : Float) : String :=
  match Decimal.classifyFloat x with
  | .finite negative b =>
    if b.mantissa = 0 then (if negative then "-0.0" else "0.0")
    else numberLayout.finiteText .double negative b
  | .infinite negative => if negative then "-inf" else "inf"
  | .notANumber => "NaN"

/-- A token as messages show it. -/
def describe : Token → String
  | .number x => "Number(" ++ numberText x ++ ")"
  | .text s => "Text(" ++ Text.quoted s ++ ")"
  | .name s => "Ident(" ++ Text.quoted s ++ ")"
  | .sign s => "Op(" ++ Text.quoted s.name ++ ")"
  | .opening => "LParen"
  | .closing => "RParen"
  | .comma => "Comma"

end Token

/-- Why a text cannot be cut into tokens. -/
inductive ScanError where
  | badNumber (text : String)
  | openText
  | badChar (c : Char)
deriving DecidableEq, Repr

def ScanError.message : ScanError → String
  | .badNumber text => "invalid number `" ++ text ++ "`"
  | .openText => "unterminated string"
  | .badChar c => "unexpected character `" ++ String.singleton c ++ "`"

namespace Token

def startsName (c : Char) : Bool :=
  Text.isAlphabetic c || c = '_'

def continuesName (c : Char) : Bool :=
  Text.isAlphanumeric c || c = '_'

def continuesNumber (c : Char) : Bool :=
  c.isDigit || c = '.'

/-- A digit starts a number, and so does a point before a digit. -/
def startsNumber (c : Char) (rest : List Char) : Bool :=
  c.isDigit || (c = '.' && (rest.head?.map Char.isDigit).getD false)

/-- The body of a text up to its closing quote, and what follows. A backslash keeps the character
after it, except that `\n` is a new line. -/
def textBody : List Char → Except ScanError (List Char × List Char)
  | [] => .error .openText
  | '"' :: rest => .ok ([], rest)
  | '\\' :: [] => .error .openText
  | '\\' :: c :: rest => (textBody rest).map fun r => ((if c = 'n' then '\n' else c) :: r.1, r.2)
  | c :: rest => (textBody rest).map fun r => (c :: r.1, r.2)

theorem textBody_length {cs body rest : List Char} (h : textBody cs = .ok (body, rest)) :
    rest.length < cs.length := by
  fun_induction textBody cs generalizing body rest with
  | case1 => simp at h
  | case2 r => simp_all
  | case3 => simp at h
  | case4 c r ih =>
    cases hr : textBody r with
    | error e => simp [hr, Except.map] at h
    | ok p =>
      simp only [hr, Except.map, Except.ok.injEq, Prod.mk.injEq] at h
      have := ih hr
      simp only [← h.2, List.length_cons]
      omega
  | case5 c r _ _ _ ih =>
    cases hr : textBody r with
    | error e => simp [hr, Except.map] at h
    | ok p =>
      simp only [hr, Except.map, Except.ok.injEq, Prod.mk.injEq] at h
      have := ih hr
      simp only [← h.2, List.length_cons]
      omega

/-- The sign at the front of a text. -/
def sign? (cs : List Char) : Option Sign :=
  Sign.all.find? fun s => s.chars.isPrefixOf cs

theorem dropWhile_length_le (p : Char → Bool) (cs : List Char) :
    (cs.dropWhile p).length ≤ cs.length :=
  (List.dropWhile_sublist p).length_le

/-- The token that starts with the character `c`, and what follows it. -/
def next? (c : Char) (cs : List Char) :
    Except ScanError (Token × { rest : List Char // rest.length ≤ cs.length }) :=
  if startsNumber c cs then
    let literal := c :: cs.takeWhile continuesNumber
    match Decimal.float? literal with
    | some x => .ok (.number x, ⟨cs.dropWhile continuesNumber, dropWhile_length_le _ cs⟩)
    | none => .error (.badNumber (String.ofList literal))
  else if startsName c then
    .ok (.name (String.ofList (c :: cs.takeWhile continuesName)),
      ⟨cs.dropWhile continuesName, dropWhile_length_le _ cs⟩)
  else if c = '"' then
    match h : textBody cs with
    | .ok (body, rest) =>
      .ok (.text (String.ofList body), ⟨rest, Nat.le_of_lt (textBody_length h)⟩)
    | .error e => .error e
  else if c = '(' then .ok (.opening, ⟨cs, Nat.le_refl _⟩)
  else if c = ')' then .ok (.closing, ⟨cs, Nat.le_refl _⟩)
  else if c = ',' then .ok (.comma, ⟨cs, Nat.le_refl _⟩)
  else
    match sign? (c :: cs) with
    | some s => .ok (.sign s, ⟨cs.drop (s.chars.length - 1), by simp⟩)
    | none => .error (.badChar c)

/-- The tokens of a text; blanks between them are skipped. -/
def scan : List Char → Except ScanError (List Token)
  | [] => .ok []
  | c :: cs =>
    if Text.isBlank c then scan cs
    else match next? c cs with
      | .error e => .error e
      | .ok (t, rest) => (scan rest.1).map (t :: ·)
termination_by cs => cs.length
decreasing_by
  · simp
  · have := rest.2
    simp only [List.length_cons]
    omega

end Token

end Playhead
