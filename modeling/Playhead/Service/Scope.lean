/-!
Scopes of state.
-/

namespace Playhead

/-- What a record outlives: a game, all games, or neither of them with the settings. -/
inductive StateScope where
  | global
  | settings
  | game
deriving DecidableEq, Repr, Inhabited

def StateScope.name : StateScope → String
  | .global => "global"
  | .settings => "settings"
  | .game => "game"

/-- One thing for each scope. -/
structure ByScope (α : Type) where
  global : α
  settings : α
  game : α
deriving Inhabited

namespace ByScope

variable {α : Type}

def all (a : α) : ByScope α := ⟨a, a, a⟩

def get (m : ByScope α) : StateScope → α
  | .global => m.global
  | .settings => m.settings
  | .game => m.game

def set (m : ByScope α) (scope : StateScope) (a : α) : ByScope α :=
  match scope with
  | .global => { m with global := a }
  | .settings => { m with settings := a }
  | .game => { m with game := a }

theorem get_set (m : ByScope α) (s t : StateScope) (a : α) :
    (m.set s a).get t = if t = s then a else m.get t := by
  cases s <;> cases t <;> rfl

end ByScope

end Playhead
