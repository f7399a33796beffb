/-!
Cancellation scopes.

A scope is cancelled once it or a scope above it is. Scopes are told apart by numbers; each carries
the numbers of all scopes above it, so that nothing but the set of cancelled numbers changes.
-/

namespace Playhead

/-- A scope's own number and those of the scopes above it, the nearest first. -/
structure CancelScope where
  id : Nat
  above : List Nat
deriving DecidableEq, Repr, Inhabited

/-- The numbers handed out so far and those that were cancelled. -/
structure Cancellations where
  next : Nat
  cancelled : List Nat
deriving DecidableEq, Repr, Inhabited

namespace Cancellations

def empty : Cancellations := ⟨0, []⟩

/-- A new scope below no other. -/
def root (c : Cancellations) : CancelScope × Cancellations :=
  (⟨c.next, []⟩, { c with next := c.next + 1 })

/-- A new scope that is cancelled together with another. -/
def child (c : Cancellations) (s : CancelScope) : CancelScope × Cancellations :=
  (⟨c.next, s.id :: s.above⟩, { c with next := c.next + 1 })

def cancel (c : Cancellations) (s : CancelScope) : Cancellations :=
  { c with cancelled := s.id :: c.cancelled }

def isCancelled (c : Cancellations) (s : CancelScope) : Bool :=
  (s.id :: s.above).any fun n => c.cancelled.contains n

theorem isCancelled_cancel (c : Cancellations) (s t : CancelScope) :
    (c.cancel s).isCancelled t = (decide (s.id ∈ t.id :: t.above) || c.isCancelled t) := by
  rw [Bool.eq_iff_iff]
  simp only [isCancelled, cancel, List.any_eq_true, List.contains_iff_mem, List.mem_cons,
    Bool.or_eq_true, decide_eq_true_eq]
  grind

theorem isCancelled_child (c : Cancellations) (s : CancelScope) :
    (c.child s).2.isCancelled (c.child s).1 = (c.cancelled.contains c.next || c.isCancelled s) := by
  simp [child, isCancelled]

end Cancellations

end Playhead
