import Playhead.Toml.Quote
import Playhead.Toml.Table

/-!
Reading TOML documents as JSON records.
-/

namespace Playhead.Toml

def skipBlanks (cs : List Char) : List Char :=
  cs.dropWhile isBlank

/-- Passes a comment up to the end of its line, if there is one. -/
def skipComment? : List Char → Option (List Char)
  | '#' :: rest =>
    let after := rest.dropWhile fun c => !isControl c
    match after with
    | [] | '\n' :: _ | '\r' :: '\n' :: _ => some after
    | _ => none
  | cs => some cs

/-- Passes blanks, comments and line endings. The bound is on their number. -/
def skipLines? : Nat → List Char → Option (List Char)
  | 0, cs => some cs
  | n + 1, cs => do
    match ← skipComment? (skipBlanks cs) with
    | '\n' :: rest => skipLines? n rest
    | '\r' :: '\n' :: rest => skipLines? n rest
    | rest => some rest

def skipSpace? (cs : List Char) : Option (List Char) :=
  skipLines? (cs.length + 1) cs

def readSimpleKey? (cs : List Char) : Option (String × List Char) :=
  let bare := cs.takeWhile isBare
  if bare.isEmpty then readQuoted? cs else some (String.ofList bare, cs.dropWhile isBare)

/-- Reads names with dots between them. The bound is on their number. -/
def readKeyWithin? : Nat → List Char → Option (List String × List Char)
  | 0, _ => none
  | n + 1, cs => do
    let (name, rest) ← readSimpleKey? (skipBlanks cs)
    match skipBlanks rest with
    | '.' :: rest =>
      let (more, rest) ← readKeyWithin? n rest
      some (name :: more, rest)
    | rest => some ([name], rest)

def readKey? (cs : List Char) : Option (List String × List Char) :=
  readKeyWithin? (cs.length + 1) cs

/-- How deep arrays and inline tables may nest. -/
def maxDepth : Nat := 80

mutual

/-- Reads a value; `depth` bounds the nesting and `n` the steps. -/
def readValue? (depth n : Nat) (cs : List Char) : Option (Json × List Char) :=
  match n with
  | 0 => none
  | n + 1 =>
    match cs, depth with
    | '[' :: rest, depth + 1 => readItems? depth n [] rest
    | '\x7b' :: rest, depth + 1 => readEntries? depth n [] rest
    | '"' :: _, _ | '\'' :: _, _ => do
      let (s, rest) ← readString? cs
      some (.text s, rest)
    | cs, _ => readScalar cs

/-- Reads the items of an array up to its end; those read so far are in reverse. -/
def readItems? (depth n : Nat) (read : List Json) (cs : List Char) :
    Option (Json × List Char) :=
  match n with
  | 0 => none
  | n + 1 => do
    match ← skipSpace? cs with
    | ']' :: rest => some (.list read.reverse, rest)
    | cs =>
      let (j, rest) ← readValue? depth n cs
      match ← skipSpace? rest with
      | ',' :: rest => readItems? depth n (j :: read) rest
      | ']' :: rest => some (.list (j :: read).reverse, rest)
      | _ => none

/-- Reads the entries of an inline table up to its end. -/
def readEntries? (depth n : Nat) (fields : Fields) (cs : List Char) :
    Option (Json × List Char) :=
  match n with
  | 0 => none
  | n + 1 => do
    match ← skipSpace? cs with
    | '\x7d' :: rest => some (.record (fieldsToJson fields), rest)
    | cs =>
      let (key, rest) ← readKey? cs
      match rest with
      | '=' :: rest =>
        let (j, rest) ← readValue? depth n (skipBlanks rest)
        let fields ← Fields.assign j true key fields
        match ← skipSpace? rest with
        | ',' :: rest => readEntries? depth n fields rest
        | '\x7d' :: rest => some (.record (fieldsToJson fields), rest)
        | _ => none
      | _ => none

end

/-- A document as far as it is read: its fields and the header that is open. -/
structure Draft where
  fields : Fields := []
  header : List String := []

/-- Reads one header, one key with its value, or nothing. -/
def readExpression? (d : Draft) (cs : List Char) : Option (Draft × List Char) :=
  match skipBlanks cs with
  | '[' :: '[' :: rest => do
    let (key, rest) ← readKey? rest
    match rest with
    | ']' :: ']' :: rest => some (⟨← d.fields.openElement key, key⟩, rest)
    | _ => none
  | '[' :: rest => do
    let (key, rest) ← readKey? rest
    match rest with
    | ']' :: rest => some (⟨← d.fields.openTable key, key⟩, rest)
    | _ => none
  | [] => some (d, [])
  | c :: rest =>
    if c = '#' || isControl c then some (d, c :: rest)
    else do
      let (key, rest) ← readKey? (c :: rest)
      match rest with
      | '=' :: rest =>
        let (j, rest) ← readValue? maxDepth (rest.length + 1) (skipBlanks rest)
        some ({ d with fields := ← d.fields.assignAt j key d.header }, rest)
      | _ => none

/-- Reads line by line. The bound is on the lines. -/
def readLines? : Nat → Draft → List Char → Option Draft
  | 0, _, _ => none
  | n + 1, d, cs => do
    let (d, rest) ← readExpression? d cs
    match ← skipComment? (skipBlanks rest) with
    | [] => some d
    | '\n' :: rest => readLines? n d rest
    | '\r' :: '\n' :: rest => readLines? n d rest
    | _ => none

/-- Reads a document; a byte order mark in front of it does not count. -/
def read? (text : String) : Option Json :=
  let cs := match text.toList with
    | '\uFEFF' :: rest => rest
    | cs => cs
  (readLines? (cs.length + 1) {} cs).map fun d => .record (fieldsToJson d.fields)

end Playhead.Toml
