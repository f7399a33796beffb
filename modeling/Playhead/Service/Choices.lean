import Playhead.Json.Decode

/-!
Choice options that wait for a selection.
-/

namespace Playhead

structure ChoiceOption where
  text : String
  /-- Where to jump. -/
  goto : Option String
  /-- Assignments to apply. -/
  set : Option String
  /-- A script to run beside the main one. -/
  script : Option String
deriving DecidableEq, Repr, Inhabited

namespace ChoiceOption

def toJson (o : ChoiceOption) : Json :=
  let field (name : String) (value : Option String) : List (String × Json) :=
    (value.map fun s => (name, .text s)).toList
  .ofFields ([("text", .text o.text)] ++ field "goto" o.goto ++ field "set" o.set ++
    field "script" o.script)

def ofJson? (j : Json) : Option ChoiceOption := do
  match ← j.fields? ["text", "goto", "set", "script"] with
  | [some (.text text), goto, set, script] =>
    some ⟨text, ← Json.optionalText? goto, ← Json.optionalText? set,
      ← Json.optionalText? script⟩
  | _ => none

end ChoiceOption

structure Choices where
  pending : List ChoiceOption
deriving DecidableEq, Repr, Inhabited

namespace Choices

def empty : Choices := ⟨[]⟩

def add (c : Choices) (o : ChoiceOption) : Choices :=
  ⟨c.pending ++ [o]⟩

def hasPending (c : Choices) : Bool :=
  !c.pending.isEmpty

/-- Takes an option; the others are dropped. An index past the end takes and drops nothing. -/
def take (c : Choices) (index : Nat) : Option (ChoiceOption × Choices) :=
  c.pending[index]?.map fun o => (o, empty)

def toJson (c : Choices) : Json :=
  .list (c.pending.map ChoiceOption.toJson)

def ofJson? (j : Json) : Option Choices := do
  let items ← j.list?
  some ⟨← items.mapM ChoiceOption.ofJson?⟩

end Choices

end Playhead
