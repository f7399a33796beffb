import Playhead.Service.CallStack
import Playhead.Service.Choices
import Playhead.Service.Played
import Playhead.Service.Preferences
import Playhead.Service.Scope
import Playhead.Service.TextLog
import Playhead.Service.Variables

/-!
The services whose state is captured, saved and restored.

A set holds the built-in services, each of which may be missing, and the services of the host in
the order of their registration. Every service has a name and hands out one record for each scope
it declares.
-/

namespace Playhead

/-- A service of the host. Its state is a JSON value that the host's functions read and write. -/
structure HostService where
  id : String
  /-- What sort of service it is, for commands that look for one. -/
  kind : String
  scopes : List StateScope
  state : Json
  /-- The record of a scope, if one can be made. -/
  record? : Json → StateScope → Option Json
  /-- The state after a record was put in, if the record is accepted. -/
  restore? : Json → StateScope → Json → Option Json
  /-- What a record that is not accepted leaves of the state. -/
  refused : Json → StateScope → Json → Json
  reset : Json → StateScope → Json

structure ServiceSet where
  variableStore : Option VariableStore
  textLog : Option TextLog
  choices : Option Choices
  callStack : Option CallStack
  played : Option Played
  preferences : Option Preferences
  host : List HostService

/-- A service of a set. -/
inductive ServiceKey where
  | variableStore
  | textLog
  | choices
  | callStack
  | played
  | preferences
  | host (index : Nat)
deriving DecidableEq, Repr

inductive ServiceError where
  /-- A record cannot be made, or was refused. -/
  | record (service : String)
  | duplicate (service : String)
  | invalidId (service : String)
deriving DecidableEq, Repr

def ServiceError.message : ServiceError → String
  | .record service => "record for service `" ++ service ++ "` is invalid"
  | .duplicate service => "service `" ++ service ++ "` is already registered"
  | .invalidId service => "invalid service id `" ++ service ++ "`"

namespace ServiceSet

def empty : ServiceSet := ⟨none, none, none, none, none, none, []⟩

instance : Inhabited ServiceSet := ⟨empty⟩

/-- All built-in services in their first state. -/
def builtin (p : Preferences) : ServiceSet where
  variableStore := some .empty
  textLog := some .empty
  choices := some .empty
  callStack := some .empty
  played := some .empty
  preferences := some p
  host := []

/-- The services of the set in the order of their registration. -/
def keys (s : ServiceSet) : List ServiceKey :=
  (if s.variableStore.isSome then [.variableStore] else []) ++
  (if s.textLog.isSome then [.textLog] else []) ++
  (if s.choices.isSome then [.choices] else []) ++
  (if s.callStack.isSome then [.callStack] else []) ++
  (if s.played.isSome then [.played] else []) ++
  (if s.preferences.isSome then [.preferences] else []) ++
  (List.range s.host.length).map .host

def idOf (s : ServiceSet) : ServiceKey → String
  | .variableStore => "variables"
  | .textLog => "text-log"
  | .choices => "choices"
  | .callStack => "call-stack"
  | .played => "played-scripts"
  | .preferences => "preferences"
  | .host index => (s.host[index]?.map (·.id)).getD ""

def scopesOf (s : ServiceSet) : ServiceKey → List StateScope
  | .variableStore => [.game, .global]
  | .textLog => [.game]
  | .choices => [.game]
  | .callStack => [.game]
  | .played => [.global]
  | .preferences => [.settings]
  | .host index => (s.host[index]?.map (·.scopes)).getD []

def ids (s : ServiceSet) : List String :=
  s.keys.map s.idOf

def keyOf? (s : ServiceSet) (id : String) : Option ServiceKey :=
  s.keys.find? fun k => s.idOf k = id

/-- The services that declare a scope. -/
def inScope (s : ServiceSet) (scope : StateScope) : List ServiceKey :=
  s.keys.filter fun k => (s.scopesOf k).contains scope

/-- Only the global scope has a record of its own among the variables. -/
def record? (s : ServiceSet) (scope : StateScope) : ServiceKey → Option Json
  | .variableStore => s.variableStore.map fun v =>
    Value.mapToJson (if scope = .global then v.global else v.game)
  | .textLog => s.textLog.map TextLog.toJson
  | .choices => s.choices.map Choices.toJson
  | .callStack => s.callStack.map CallStack.toJson
  | .played => s.played.map Played.toJson
  | .preferences => s.preferences.map fun p => p.current.toJson
  | .host index => s.host[index]?.bind fun h => h.record? h.state scope

def record (s : ServiceSet) (scope : StateScope) (key : ServiceKey) :
    Except ServiceError Json :=
  match s.record? scope key with
  | some j => .ok j
  | none => .error (.record (s.idOf key))

def setHost (s : ServiceSet) (index : Nat) (h : HostService) : ServiceSet :=
  { s with host := s.host.set index h }

/-- The set after a service took in a record, if the service accepts it. -/
def restore? (s : ServiceSet) (scope : StateScope) (key : ServiceKey) (j : Json) :
    Option ServiceSet :=
  match key with
  | .variableStore => do
    let v ← s.variableStore
    let m ← Value.mapOfJson? j
    some { s with variableStore := some (if scope = .global then { v with global := m }
      else { v with game := m }) }
  | .textLog => (TextLog.ofJson? j).map fun l => { s with textLog := some l }
  | .choices => (Choices.ofJson? j).map fun c => { s with choices := some c }
  | .callStack => (CallStack.ofJson? j).map fun c => { s with callStack := some c }
  | .played => (Played.ofJson? j).map fun p => { s with played := some p }
  | .preferences => do
    let p ← s.preferences
    let current ← Prefs.ofJson? j
    some { s with preferences := some { p with current := current } }
  | .host index => do
    let h ← s.host[index]?
    let state ← h.restore? h.state scope j
    some (s.setHost index { h with state := state })

def restore (s : ServiceSet) (scope : StateScope) (key : ServiceKey) (j : Json) :
    Except ServiceError ServiceSet :=
  match s.restore? scope key j with
  | some s => .ok s
  | none => .error (.record (s.idOf key))

/-- The set after a service refused a record. Only those of the host may have changed. -/
def refuse (s : ServiceSet) (scope : StateScope) (key : ServiceKey) (j : Json) : ServiceSet :=
  match key with
  | .host index =>
    match s.host[index]? with
    | some h => s.setHost index { h with state := h.refused h.state scope j }
    | none => s
  | _ => s

/-- The set after a service went back to its first state in a scope. -/
def reset (s : ServiceSet) (scope : StateScope) (key : ServiceKey) : ServiceSet :=
  match key with
  | .variableStore => { s with variableStore := s.variableStore.map fun v =>
      if scope = .global then { v with global := .empty } else { v with game := .empty } }
  | .textLog => { s with textLog := s.textLog.map fun _ => .empty }
  | .choices => { s with choices := s.choices.map fun _ => .empty }
  | .callStack => { s with callStack := s.callStack.map fun _ => .empty }
  | .played => { s with played := s.played.map fun _ => .empty }
  | .preferences => { s with preferences := s.preferences.map fun p =>
      { p with current := p.defaults } }
  | .host index =>
    match s.host[index]? with
    | some h => s.setHost index { h with state := h.reset h.state scope }
    | none => s

/-- Adds a service of the host. Names are distinct, and those that start with `@` are reserved. -/
def register (s : ServiceSet) (h : HostService) : Except ServiceError ServiceSet :=
  if h.id = "" || h.id.toList.head? = some '@' then .error (.invalidId h.id)
  else if s.ids.contains h.id then .error (.duplicate h.id)
  else .ok { s with host := s.host ++ [h] }

/-- Whether a set has choice options that wait for a selection. -/
def choicesPending (s : ServiceSet) : Bool :=
  (s.choices.map Choices.hasPending).getD false

def pendingChoices (s : ServiceSet) : List ChoiceOption :=
  (s.choices.map Choices.pending).getD []

end ServiceSet

end Playhead
