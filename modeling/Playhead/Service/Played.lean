import Playhead.Json.Decode

/-!
Which commands were played before.
-/

namespace Playhead

/-- A finite set of indices in increasing order. -/
structure IndexSet where
  items : List Nat
  ordered : items.Pairwise (· < ·)
deriving DecidableEq

namespace IndexSet

def empty : IndexSet := ⟨[], .nil⟩

instance : Inhabited IndexSet := ⟨empty⟩

def place (n : Nat) : List Nat → List Nat
  | [] => [n]
  | m :: rest => if n < m then n :: m :: rest else if m = n then m :: rest else m :: place n rest

theorem mem_place {n k : Nat} {l : List Nat} : k ∈ place n l ↔ k = n ∨ k ∈ l := by
  induction l with
  | nil => simp [place]
  | cons m rest ih => grind [place]

theorem place_ordered (n : Nat) {l : List Nat} (h : l.Pairwise (· < ·)) :
    (place n l).Pairwise (· < ·) := by
  induction l with
  | nil => simp [place]
  | cons m rest ih =>
    have hm := (List.pairwise_cons.1 h).1
    have hr := (List.pairwise_cons.1 h).2
    simp only [place]
    split
    · refine List.pairwise_cons.2 ⟨fun k hk => ?_, h⟩
      rcases List.mem_cons.1 hk with hk | hk
      · omega
      · have := hm k hk
        omega
    · split
      · exact h
      · refine List.pairwise_cons.2 ⟨fun k hk => ?_, ih hr⟩
        rcases mem_place.1 hk with hk | hk
        · omega
        · exact hm k hk

def insert (s : IndexSet) (n : Nat) : IndexSet :=
  ⟨place n s.items, place_ordered n s.ordered⟩

def contains (s : IndexSet) (n : Nat) : Bool :=
  s.items.contains n

def ofList (l : List Nat) : IndexSet :=
  l.foldl insert empty

def toJson (s : IndexSet) : Json :=
  .list (s.items.map fun n : Nat => .int n)

def ofJson? (j : Json) : Option IndexSet := do
  let items ← j.list?
  some (ofList (← items.mapM Json.word?))

end IndexSet

structure Played where
  scripts : NameMap IndexSet

namespace Played

def empty : Played := ⟨.empty⟩

instance : Inhabited Played := ⟨empty⟩

def mark (p : Played) (script : String) (index : Nat) : Played :=
  ⟨p.scripts.insert script (((p.scripts.get? script).getD .empty).insert index)⟩

def isPlayed (p : Played) (script : String) (index : Nat) : Bool :=
  ((p.scripts.get? script).map fun s => s.contains index).getD false

def forget (p : Played) (script : String) : Played :=
  ⟨p.scripts.erase script⟩

def toJson (p : Played) : Json :=
  .record (p.scripts.entries.map fun e => (e.1, e.2.toJson))

def ofJson? (j : Json) : Option Played := do
  let fields ← j.record?
  let scripts ← fields.mapM fun e => do some (e.1, ← IndexSet.ofJson? e.2)
  some ⟨.ofList scripts⟩

end Played

end Playhead
