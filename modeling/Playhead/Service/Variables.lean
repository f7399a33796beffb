import Playhead.Expr.Assignment
import Playhead.Json.Decode

/-!
Script variables.

Names that start with `g_` are global and outlive a game; all others belong to the game.
-/

namespace Playhead

structure VariableStore where
  game : NameMap Value
  global : NameMap Value

namespace VariableStore

def empty : VariableStore := ⟨.empty, .empty⟩

instance : Inhabited VariableStore := ⟨empty⟩

def isGlobal (name : String) : Bool :=
  ['g', '_'].isPrefixOf name.toList

def get? (s : VariableStore) (name : String) : Option Value :=
  if isGlobal name then s.global.get? name else s.game.get? name

def set (s : VariableStore) (name : String) (value : Value) : VariableStore :=
  if isGlobal name then { s with global := s.global.insert name value }
  else { s with game := s.game.insert name value }

def erase (s : VariableStore) (name : String) : VariableStore :=
  if isGlobal name then { s with global := s.global.erase name }
  else { s with game := s.game.erase name }

/-- All variables, those of the game first. -/
def toList (s : VariableStore) : List (String × Value) :=
  s.game.entries ++ s.global.entries

/-- The variables under values that are not stored yet. -/
def under (s : VariableStore) (staged : NameMap Value) : Variables :=
  fun name => (staged.get? name).or (s.get? name)

/-- Evaluates assignments in order, each seeing the values of those before it. -/
def stage (s : VariableStore) : NameMap Value → List Assignment → Except ExprError (NameMap Value)
  | staged, [] => .ok staged
  | staged, a :: rest => do
    let vars := s.under staged
    let value ← a.resolve (vars a.target) vars
    stage s (staged.insert a.target value) rest

def commit (s : VariableStore) (staged : NameMap Value) : VariableStore :=
  staged.entries.foldl (fun s e => s.set e.1 e.2) s

/-- Applies assignments in order. Nothing is stored unless every one of them has a value. -/
def apply (s : VariableStore) (assignments : List Assignment) :
    Except ExprError VariableStore :=
  (s.stage .empty assignments).map s.commit

end VariableStore

namespace Value

def toJson : Value → Json
  | .bool b => .bool b
  | .number x => .ofFloat x
  | .text s => .text s

def ofJson? : Json → Option Value
  | .bool b => some (.bool b)
  | .int n => some (.number (Json.floatOfInt n))
  | .number x => some (.number x)
  | .text s => some (.text s)
  | _ => none

/-- Values by name as a record. -/
def mapToJson (m : NameMap Value) : Json :=
  .record (m.entries.map fun e => (e.1, e.2.toJson))

def mapOfJson? (j : Json) : Option (NameMap Value) := do
  let fields ← j.record?
  let values ← fields.mapM fun e => do some (e.1, ← ofJson? e.2)
  some (.ofList values)

end Value

end Playhead
