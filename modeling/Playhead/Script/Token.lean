import Playhead.Text.Basic

/-!
How a line is cut: commands at blanks outside quotes, lines of text at commands in brackets.

A backslash keeps the character after it from cutting anything.
-/

namespace Playhead.Script

/-- Adds a token that was collected in reverse, unless it is empty. -/
def pushToken (token : List Char) (tokens : List (List Char)) : List (List Char) :=
  if token.isEmpty then tokens else token.reverse :: tokens

/-- Tokens behind the characters of a token in reverse. Quotes and backslashes stay. -/
def tokensBehind : Bool → List Char → List Char → List (List Char)
  | _, token, [] => pushToken token []
  | quoted, token, '\\' :: c :: rest => tokensBehind quoted (c :: '\\' :: token) rest
  | quoted, token, c :: rest =>
    if c = '"' then tokensBehind (!quoted) (c :: token) rest
    else if Text.isBlank c && !quoted then pushToken token (tokensBehind quoted [] rest)
    else tokensBehind quoted (c :: token) rest

/-- The tokens of a command. -/
def splitTokens (body : List Char) : List (List Char) :=
  tokensBehind false [] body

/-- A command in brackets up to the bracket that closes it, and what follows. -/
def inlineBody : Bool → List Char → Option (List Char × List Char)
  | _, [] => none
  | quoted, '\\' :: c :: rest =>
    (inlineBody quoted rest).map fun r => ('\\' :: c :: r.1, r.2)
  | quoted, c :: rest =>
    if c = ']' && !quoted then some ([], rest)
    else
      (inlineBody (if c = '"' then !quoted else quoted) rest).map fun r => (c :: r.1, r.2)

theorem inlineBody_length {quoted : Bool} {cs body rest : List Char}
    (h : inlineBody quoted cs = some (body, rest)) : rest.length < cs.length := by
  fun_induction inlineBody quoted cs generalizing body rest with
  | case1 => simp at h
  | case2 quoted c r ih =>
    obtain ⟨⟨b, t⟩, hr, he⟩ := Option.map_eq_some_iff.1 h
    simp only [Prod.mk.injEq] at he
    have := ih hr
    simp only [← he.2, List.length_cons]
    omega
  | case3 quoted c r _ hc =>
    simp only [Option.some.injEq, Prod.mk.injEq] at h
    simp [← h.2]
  | case4 quoted c r _ hc ih =>
    obtain ⟨⟨b, t⟩, hr, he⟩ := Option.map_eq_some_iff.1 h
    simp only [Prod.mk.injEq] at he
    have := ih hr
    simp only [← he.2, List.length_cons]
    omega

/-- A piece of a line of text. -/
inductive Segment where
  | text (cs : List Char)
  | command (body : List Char)
  /-- A bracket was opened and never closed; it counts as text. -/
  | unclosed
deriving DecidableEq, Repr

/-- Pieces behind the characters of a text in reverse. -/
def segmentsBehind (text : List Char) : List Char → List Segment
  | [] => [.text text.reverse]
  | ['\\'] => [.text ('\\' :: text).reverse]
  | '\\' :: c :: rest => segmentsBehind (c :: text) rest
  | c :: rest =>
    if c = '[' then
      match _h : inlineBody false rest with
      | some (body, after) => .text text.reverse :: .command body :: segmentsBehind [] after
      | none => [.unclosed, .text (text.reverse ++ c :: rest)]
    else segmentsBehind (c :: text) rest
termination_by cs => cs.length
decreasing_by
  · simp only [List.length_cons]
    omega
  · have := inlineBody_length _h
    simp only [List.length_cons]
    omega
  · simp

def segments (body : List Char) : List Segment :=
  segmentsBehind [] body

/-- A name of ASCII letters, digits and underscores that does not start with a digit. -/
def isIdentifier : List Char → Bool
  | [] => false
  | c :: rest => (c.isAlpha || c = '_') && rest.all fun c => c.isAlphanum || c = '_'

/-- Splits `name:value` at the first colon. -/
def splitNamed (token : List Char) : Option (String × List Char) :=
  let name := token.takeWhile (· != ':')
  match token.dropWhile (· != ':') with
  | _ :: value => if isIdentifier name then some (String.ofList name, value) else none
  | [] => none

/-- Reads `name!` as a set flag and `!name` as one that is not set. -/
def asFlag (token : List Char) : Option (String × Bool) :=
  let named (name : List Char) (value : Bool) : Option (String × Bool) :=
    if isIdentifier name then some (String.ofList name, value) else none
  if token.getLast? = some '!' then named token.dropLast true
  else match token with
    | '!' :: name => named name false
    | _ => none

/-- The two sides of the first colon that a space follows. -/
def splitColon : List Char → Option (List Char × List Char)
  | ':' :: ' ' :: rest => some ([], rest)
  | c :: rest => (splitColon rest).map fun r => (c :: r.1, r.2)
  | [] => none

/-- The author of a line of text, if it names one, and the text. -/
def splitAuthor (line : List Char) : Option String × List Char :=
  match splitColon line with
  | some (author, text) =>
    if author.isEmpty || author.any fun c => Text.isBlank c || c = '[' || c = '"' || c = '\\' then
      (none, line)
    else (some (String.ofList author), text)
  | none => (none, line)

end Playhead.Script
