import Playhead.Command.Task
import Playhead.NameMap

/-!
Kinds of commands and the registry that knows them by name.
-/

namespace Playhead

/-- A kind of command. -/
structure Handler where
  name : String
  aliases : List String
  params : List ParamSpec
  role : BlockRole
  /-- Whether completing the command captures a snapshot. -/
  eligible : Bool
  /-- Whether a rewind may not play past the command. -/
  blocks : Command → Bool
  /-- Resources to look up before playback starts. -/
  resources : Command → List String
  /-- Texts of the jump targets written in the command. -/
  targets : Command → List String
  /-- Warnings about a command that was just read. -/
  diagnose : Command → Except WaitError (List String)
  begin : Command → Except Fault Task

namespace Handler

/-- A handler with a name, parameters and a start; all else is the common case. -/
def plain (name : String) (params : List ParamSpec) (begin : Command → Except Fault Task) :
    Handler where
  name := name
  aliases := []
  params := params
  role := .none
  eligible := true
  blocks _ := false
  resources _ := []
  targets _ := []
  diagnose _ := .ok []
  begin := begin

/-- All names of a handler without regard to ASCII case. -/
def keys (h : Handler) : List String :=
  (h.name :: h.aliases).map String.toLower

end Handler

inductive RegistryError where
  | duplicate (name : String)
deriving DecidableEq, Repr

def RegistryError.message : RegistryError → String
  | .duplicate name => "command name `" ++ name ++ "` is already registered"

/-- Handlers in the order of their registration. -/
structure Registry where
  handlers : List Handler

namespace Registry

def empty : Registry := ⟨[]⟩

instance : Inhabited Registry := ⟨empty⟩

/-- Leads every one of some names to a place among the handlers. -/
def enter (table : NameMap Nat) (names : List String) (index : Nat) : NameMap Nat :=
  names.foldl (fun table name => table.insert name index) table

/-- The places of the handlers under their folded names, entered in the order of registration. -/
def byName (r : Registry) : NameMap Nat :=
  r.handlers.zipIdx.foldl (fun table e => enter table e.1.keys e.2) ∅

/-- Looks a handler up by name or alias: under the very text first, then without regard to ASCII
case. -/
def get? (r : Registry) (name : String) : Option Handler :=
  match r.byName.get? name with
  | some index => r.handlers[index]?
  | none =>
    match r.byName.get? name.toLower with
    | some index => r.handlers[index]?
    | none => none

def contains (r : Registry) (name : String) : Bool :=
  (r.get? name).isSome

/-- Adds a handler unless one of its names is taken. -/
def register (r : Registry) (h : Handler) : Except RegistryError Registry :=
  match h.keys.find? r.byName.contains with
  | some taken => .error (.duplicate taken)
  | none => .ok ⟨r.handlers ++ [h]⟩

def registerAll (r : Registry) : List Handler → Except RegistryError Registry
  | [] => .ok r
  | h :: rest => do (← r.register h).registerAll rest

def names (r : Registry) : List String :=
  r.handlers.map (·.name)

end Registry

end Playhead
