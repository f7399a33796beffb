import Playhead.Engine.Basic

/-!
Checking scripts: each is read anew, and what is wrong with it is shown.
-/

namespace Playhead

structure Validation where
  engine : Engine
  checked : Nat := 0
  failed : Nat := 0
  diagnostics : Nat := 0
  shown : List String := []
  /-- Whether reading was given up for good. -/
  gaveUp : Bool := false

namespace Validation

def describe (d : Document) : List String :=
  (d.name ++ ": " ++ Decimal.digitsText d.size ++ " commands, " ++
    Decimal.digitsText d.labels.size ++ " labels") ::
    d.diagnostics.map fun m => "  warning: " ++ m.text

def add (v : Validation) (name : String) : Validation :=
  let v := { v with checked := v.checked + 1 }
  match v.engine.reloadScript name with
  | (engine, .ok d) =>
    { v with
      engine := engine
      diagnostics := v.diagnostics + d.diagnostics.length
      shown := v.shown ++ describe d }
  | (engine, .error e) =>
    { v with
      engine := engine
      failed := v.failed + 1
      shown := v.shown ++ [name ++ ": error: " ++ e.message]
      gaveUp := v.gaveUp || e.isTooLong }

end Validation

/-- Reads scripts anew and tells what is wrong with them. -/
def Engine.validate (e : Engine) (names : List String) : Validation :=
  names.foldl Validation.add { engine := e }

end Playhead
