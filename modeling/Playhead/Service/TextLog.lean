import Playhead.Json.Decode

/-!
The log of printed lines.
-/

namespace Playhead

structure LogEntry where
  author : Option String
  text : String
deriving DecidableEq, Repr, Inhabited

namespace LogEntry

def toJson (e : LogEntry) : Json :=
  .ofFields ((e.author.map fun a => ("author", .text a)).toList ++ [("text", .text e.text)])

def ofJson? (j : Json) : Option LogEntry := do
  match ← j.fields? ["author", "text"] with
  | [author, some (.text text)] => some ⟨← Json.optionalText? author, text⟩
  | _ => none

/-- The line as the reader sees it, its author in front. -/
def line (e : LogEntry) : String :=
  match e.author with
  | some author => author ++ ": " ++ e.text
  | none => e.text

end LogEntry

/-- Kept newest first, so that a new entry goes in front. -/
structure TextLog where
  newestFirst : List LogEntry
deriving DecidableEq, Repr, Inhabited

namespace TextLog

def empty : TextLog := ⟨[]⟩

def entries (l : TextLog) : List LogEntry :=
  l.newestFirst.reverse

def push (l : TextLog) (e : LogEntry) : TextLog :=
  ⟨e :: l.newestFirst⟩

theorem entries_push (l : TextLog) (e : LogEntry) : (l.push e).entries = l.entries ++ [e] := by
  simp [entries, push]

def size (l : TextLog) : Nat :=
  l.newestFirst.length

def last? (l : TextLog) : Option LogEntry :=
  l.newestFirst.head?

def toJson (l : TextLog) : Json :=
  .list (l.entries.map LogEntry.toJson)

def ofJson? (j : Json) : Option TextLog := do
  let items ← j.list?
  let entries ← items.mapM LogEntry.ofJson?
  some ⟨entries.reverse⟩

end TextLog

end Playhead
