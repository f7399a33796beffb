import Playhead.Json.Printer
import Playhead.Toml.Scalar

/-!
TOML strings: reading the four quoted forms, and writing a text in the plainest of them that can
hold it.
-/

namespace Playhead.Toml

/-- The character of a code point, which must not be a surrogate. -/
def charOf? (digits : List Char) : Option Char :=
  let n := value 16 digits
  if h : n.isValidChar then
    if digits.all isHexDigit then some (Char.ofNatAux n h) else none
  else none

/-- The character after a backslash, for escapes of one character. -/
def simpleEscape? (c : Char) : Option Char :=
  [('b', '\x08'), ('t', '\t'), ('n', '\n'), ('f', '\x0c'), ('r', '\r'), ('e', '\x1b'),
   ('"', '"'), ('\\', '\\')].lookup c

/-- Whether a line ends here, after blanks. -/
def atLineEnd (cs : List Char) : Bool :=
  match cs.dropWhile isBlank with
  | '\n' :: _ => true
  | '\r' :: '\n' :: _ => true
  | _ => false

/-- Reads up to the closing quote. The text read so far is in reverse. -/
def readBasic (read : List Char) : List Char → Option (String × List Char)
  | [] => none
  | '"' :: rest => some (String.ofList read.reverse, rest)
  | '\\' :: 'x' :: a :: b :: rest => do readBasic ((← charOf? [a, b]) :: read) rest
  | '\\' :: 'u' :: a :: b :: c :: d :: rest => do
    readBasic ((← charOf? [a, b, c, d]) :: read) rest
  | '\\' :: 'U' :: a :: b :: c :: d :: e :: f :: g :: h :: rest => do
    readBasic ((← charOf? [a, b, c, d, e, f, g, h]) :: read) rest
  | '\\' :: c :: rest => do readBasic ((← simpleEscape? c) :: read) rest
  | c :: rest => if isControl c then none else readBasic (c :: read) rest

def readLiteral (read : List Char) : List Char → Option (String × List Char)
  | [] => none
  | '\'' :: rest => some (String.ofList read.reverse, rest)
  | c :: rest => if isControl c then none else readLiteral (c :: read) rest

/-- Three quotes end a text of several lines; up to two more before them belong to the text. -/
def closeQuotes (quote : Char) (read rest : List Char) : String × List Char :=
  match rest with
  | a :: b :: more =>
    if a = quote && b = quote then (String.ofList (quote :: quote :: read).reverse, more)
    else if a = quote then (String.ofList (quote :: read).reverse, b :: more)
    else (String.ofList read.reverse, rest)
  | [a] =>
    if a = quote then (String.ofList (quote :: read).reverse, [])
    else (String.ofList read.reverse, rest)
  | [] => (String.ofList read.reverse, [])

/-- Reads up to three closing quotes. After a backslash at the end of a line, blanks and line
endings are passed. -/
def readBasicLines (read : List Char) (passing : Bool) : List Char → Option (String × List Char)
  | [] => none
  | '"' :: '"' :: '"' :: rest => some (closeQuotes '"' read rest)
  | '\r' :: '\n' :: rest =>
    if passing then readBasicLines read true rest
    else readBasicLines ('\n' :: '\r' :: read) false rest
  | '\\' :: 'x' :: a :: b :: rest => do readBasicLines ((← charOf? [a, b]) :: read) false rest
  | '\\' :: 'u' :: a :: b :: c :: d :: rest => do
    readBasicLines ((← charOf? [a, b, c, d]) :: read) false rest
  | '\\' :: 'U' :: a :: b :: c :: d :: e :: f :: g :: h :: rest => do
    readBasicLines ((← charOf? [a, b, c, d, e, f, g, h]) :: read) false rest
  | '\\' :: c :: rest =>
    if atLineEnd (c :: rest) then readBasicLines read true rest
    else do readBasicLines ((← simpleEscape? c) :: read) false rest
  | c :: rest =>
    if passing && (isBlank c || c = '\n') then readBasicLines read true rest
    else if isControl c && c ≠ '\n' then none
    else readBasicLines (c :: read) false rest

def readLiteralLines (read : List Char) : List Char → Option (String × List Char)
  | [] => none
  | '\'' :: '\'' :: '\'' :: rest => some (closeQuotes '\'' read rest)
  | '\r' :: '\n' :: rest => readLiteralLines ('\n' :: '\r' :: read) rest
  | c :: rest =>
    if isControl c && c ≠ '\n' then none else readLiteralLines (c :: read) rest

/-- A line ending right after the opening quotes does not count. -/
def dropNewline : List Char → List Char
  | '\n' :: rest => rest
  | '\r' :: '\n' :: rest => rest
  | cs => cs

/-- Reads a quoted text of one line. -/
def readQuoted? : List Char → Option (String × List Char)
  | '"' :: rest => readBasic [] rest
  | '\'' :: rest => readLiteral [] rest
  | _ => none

/-- Reads a quoted text of one or several lines. -/
def readString? : List Char → Option (String × List Char)
  | '"' :: '"' :: '"' :: rest => readBasicLines [] false (dropNewline rest)
  | '\'' :: '\'' :: '\'' :: rest => readLiteralLines [] (dropNewline rest)
  | cs => readQuoted? cs

/-- The longest run of a character. -/
def longestRun (c : Char) (cs : List Char) : Nat :=
  (cs.foldl (fun (r : Nat × Nat) d =>
    let run := if d = c then r.1 + 1 else 0
    (run, max r.2 run)) (0, 0)).2

/-- A character with an escape in front where it needs one; `quotes` counts the double quotes right
before it. -/
def escaped (lines : Bool) (quotes : Nat) (c : Char) : String :=
  if c = '"' then if (if lines then 2 else 0) < quotes + 1 then "\\\"" else "\""
  else if c = '\\' then "\\\\"
  else if c = '\n' then if lines then "\n" else "\\n"
  else if c = '\t' then "\\t"
  else if c = '\r' then "\\r"
  else if c = '\x08' then "\\b"
  else if c = '\x0c' then "\\f"
  else if isControl c then "\\u" ++ (Json.hexText 4 c.toNat).toUpper
  else String.singleton c

/-- Escapes a text; an escaped quote ends a run of quotes. -/
def escapeAll (lines : Bool) (quotes : Nat) : List Char → String
  | [] => ""
  | c :: rest =>
    let text := escaped lines quotes c
    text ++ escapeAll lines (if text = "\"" then quotes + 1 else 0) rest

/-- Writes a text in double quotes, in single ones, or in three of either; with escapes only if no
form does without. -/
def quote (s : String) : String :=
  let cs := s.toList
  let newline := cs.contains '\n'
  let control := cs.any fun c => isControl c && c ≠ '\n'
  let backslash := cs.contains '\\'
  let doubles := longestRun '"' cs
  let singles := longestRun '\'' cs
  let opening := if newline then "\n" else ""
  let basic := "\"" ++ escapeAll false 0 cs ++ "\""
  let basicLines := "\"\"\"" ++ opening ++ escapeAll true 0 cs ++ "\"\"\""
  if !control && !backslash && doubles = 0 && !newline then basic
  else if !control && singles = 0 && !newline then "'" ++ s ++ "'"
  else if !control && !backslash && doubles ≤ 2 then basicLines
  else if !control && singles ≤ 2 then "'''" ++ opening ++ s ++ "'''"
  else if newline then basicLines
  else basic

end Playhead.Toml
