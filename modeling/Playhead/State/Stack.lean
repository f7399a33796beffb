import Playhead.State.Snapshot

/-!
The rollback stack: snapshots in the order in which they were captured, oldest first, at most
`depth` of them.
-/

namespace Playhead

structure RollbackStack where
  snapshots : List Snapshot
  depth : Nat
  /-- How many snapshots were dropped at the old end since the stack was cleared. -/
  evicted : Nat
deriving Inhabited

namespace RollbackStack

def empty (depth : Nat) : RollbackStack := ⟨[], depth, 0⟩

def size (s : RollbackStack) : Nat :=
  s.snapshots.length

/-- The snapshots without those at the new end that were captured at `played` or later. -/
def before (played : Nat) (l : List Snapshot) : List Snapshot :=
  (l.reverse.dropWhile fun s => played ≤ s.played).reverse

/-- Adds a snapshot in place of those it supersedes; gives the one that was dropped, if any. -/
def push (s : RollbackStack) (x : Snapshot) : RollbackStack × Option Snapshot :=
  let kept := before x.played s.snapshots
  if s.depth = 0 then ({ s with snapshots := kept, evicted := s.evicted + 1 }, some x)
  else
    match kept ++ [x] with
    | oldest :: rest =>
      if s.depth < rest.length + 1 then
        ({ s with snapshots := rest, evicted := s.evicted + 1 }, some oldest)
      else ({ s with snapshots := oldest :: rest }, none)
    | [] => (s, none)

/-- Bounds the stack anew; gives the snapshots that were dropped, oldest first. -/
def setDepth (s : RollbackStack) (depth : Nat) : RollbackStack × List Snapshot :=
  let excess := s.size - depth
  ({ snapshots := s.snapshots.drop excess, depth := depth, evicted := s.evicted + excess },
    s.snapshots.take excess)

def newest? (s : RollbackStack) : Option Snapshot :=
  s.snapshots.getLast?

def modifyLast (f : Snapshot → Snapshot) : List Snapshot → List Snapshot
  | [] => []
  | [x] => [f x]
  | x :: rest => x :: modifyLast f rest

/-- Says whether the player may roll back to the newest snapshot. -/
def allowNewest (s : RollbackStack) (allowed : Bool) : RollbackStack :=
  { s with snapshots := modifyLast (fun x => { x with allowed := allowed }) s.snapshots }

/-- The snapshot at a position, counted from the oldest. -/
def get? (s : RollbackStack) (position : Nat) : Option Snapshot :=
  s.snapshots[position]?

/-- The position of the newest snapshot that passes a test. -/
def lastPosition? (s : RollbackStack) (p : Snapshot → Bool) : Option Nat :=
  (s.snapshots.reverse.findIdx? p).map fun i => s.size - 1 - i

/-- Drops the snapshots after a position. -/
def truncateAfter (s : RollbackStack) (position : Nat) : RollbackStack :=
  { s with snapshots := s.snapshots.take (position + 1) }

def clear (s : RollbackStack) : RollbackStack :=
  { s with snapshots := [], evicted := 0 }

/-- The newest `count` snapshots, oldest first. -/
def tail (s : RollbackStack) (count : Nat) : List Snapshot :=
  s.snapshots.drop (s.size - count)

/-- Pushes snapshots onto the cleared stack; none of them counts as dropped. -/
def replace (s : RollbackStack) (l : List Snapshot) : RollbackStack :=
  { l.foldl (fun s x => (s.push x).1) s.clear with evicted := 0 }

end RollbackStack

end Playhead
