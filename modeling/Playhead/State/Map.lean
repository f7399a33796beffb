import Playhead.Service.Set

/-!
State maps: the records of all services of a scope, by service.

Putting a map into a set of services either changes every service of the scope or none.
-/

namespace Playhead

abbrev StateMap : Type := NameMap Json

namespace StateMap

def collectKeys (s : ServiceSet) (scope : StateScope) :
    List ServiceKey → Except ServiceError StateMap
  | [] => .ok .empty
  | key :: rest => do
    let j ← s.record scope key
    let map ← collectKeys s scope rest
    .ok (map.insert (s.idOf key) j)

/-- The records of the services of a scope. -/
def collect (s : ServiceSet) (scope : StateScope) : Except ServiceError StateMap :=
  collectKeys s scope (s.inScope scope)

/-- Puts records in one service at a time; a service without one is reset. Up to the first refusal,
the set is changed. -/
def applyKeys (map : StateMap) (scope : StateScope) :
    ServiceSet → List ServiceKey → ServiceSet × Option ServiceError
  | s, [] => (s, none)
  | s, key :: rest =>
    match map.get? (s.idOf key) with
    | none => applyKeys map scope (s.reset scope key) rest
    | some j =>
      match s.restore scope key j with
      | .ok s => applyKeys map scope s rest
      | .error e => (s.refuse scope key j, some e)

/-- Puts a map into the services of a scope. If one refuses its record, the records collected
before are put back. -/
def apply (map : StateMap) (scope : StateScope) (s : ServiceSet) :
    ServiceSet × Except ServiceError Unit :=
  match collect s scope with
  | .error e => (s, .error e)
  | .ok backup =>
    match applyKeys map scope s (s.inScope scope) with
    | (s, none) => (s, .ok ())
    | (s, some e) => ((applyKeys backup scope s (s.inScope scope)).1, .error e)

def reset (scope : StateScope) (s : ServiceSet) : ServiceSet :=
  (s.inScope scope).foldl (fun s key => s.reset scope key) s

end StateMap

end Playhead
