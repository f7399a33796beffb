import Playhead.Playback.Spot

/-!
Spots to which subroutines return.
-/

namespace Playhead

/-- Frames from the outermost to the innermost. -/
structure CallStack where
  frames : List Spot
deriving DecidableEq, Repr, Inhabited

namespace CallStack

def maxDepth : Nat := 64

def empty : CallStack := ⟨[]⟩

def depth (c : CallStack) : Nat :=
  c.frames.length

/-- Refuses a frame past the greatest depth. -/
def push? (c : CallStack) (s : Spot) : Option CallStack :=
  if c.depth < maxDepth then some ⟨c.frames ++ [s]⟩ else none

def pop? (c : CallStack) : Option (Spot × CallStack) :=
  c.frames.getLast?.map fun s => (s, ⟨c.frames.dropLast⟩)

def toJson (c : CallStack) : Json :=
  .list (c.frames.map Spot.toJson)

def ofJson? (j : Json) : Option CallStack := do
  let items ← j.list?
  some ⟨← items.mapM Spot.ofJson?⟩

end CallStack

end Playhead
