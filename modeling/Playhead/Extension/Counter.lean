import Playhead.Service.Set

/-!
A counter: a service of the host that keeps one whole number for a game.
-/

namespace Playhead.Counter

/-- Bounds of the number. -/
def least : Int := -9223372036854775808

def greatest : Int := 9223372036854775807

def clamp (n : Int) : Int :=
  max least (min greatest n)

def value (state : Json) : Int :=
  state.int?.getD 0

/-- A negative number has no record. -/
def record? (state : Json) (_scope : StateScope) : Option Json :=
  if value state < 0 then none else some (.ofFields [("value", .int (value state))])

/-- Takes in a record with a whole number in range. -/
def restore? (_state : Json) (_scope : StateScope) (record : Json) : Option Json := do
  let n ← (← record.field? "value").int?
  if least ≤ n && n ≤ greatest then some (.int n) else none

/-- What kind of service a counter is. -/
def kind : String := "counter"

def service (id : String) : HostService where
  id := id
  kind := kind
  scopes := [.game]
  state := .int 0
  record? := record?
  restore? := restore?
  refused state _ _ := state
  reset _ _ := .int 0

/-- The first counter of a set. -/
def index? (s : ServiceSet) : Option Nat :=
  s.host.findIdx? fun h => h.kind = kind

def get? (s : ServiceSet) : Option Int := do
  let h ← s.host[← index? s]?
  some (value h.state)

/-- Puts a number into the first counter of a set. -/
def set (s : ServiceSet) (n : Int) : ServiceSet :=
  match index? s with
  | none => s
  | some i =>
    match s.host[i]? with
    | some h => s.setHost i { h with state := .int n }
    | none => s

end Playhead.Counter
