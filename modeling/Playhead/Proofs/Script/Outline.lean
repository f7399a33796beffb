import Playhead.Script.Block

/-!
The outline of a script: its commands as conditional blocks that nest.
-/

namespace Playhead

mutual

/-- Commands in which every block is closed. -/
inductive Outline where
  | nil
  | leaf (c : Command) (hc : c.role = .none) (rest : Outline)
  | block (c : Command) (hc : c.role = .if) (body : Outline) (more : Branches) (rest : Outline)

/-- What follows the first branch of a block. -/
inductive Branches where
  | close (c : Command) (hc : c.role = .endif)
  | last (c : Command) (hc : c.role = .else) (body : Outline) (close : Command)
    (hclose : close.role = .endif)
  | also (c : Command) (hc : c.role = .elseif) (body : Outline) (more : Branches)

end

mutual

def Outline.commands : Outline → List Command
  | .nil => []
  | .leaf c _ rest => c :: rest.commands
  | .block c _ body more rest => c :: (body.commands ++ (more.commands ++ rest.commands))

def Branches.commands : Branches → List Command
  | .close c _ => [c]
  | .last c _ body close _ => c :: (body.commands ++ [close])
  | .also c _ body more => c :: (body.commands ++ more.commands)

end

def Outline.size (o : Outline) : Nat :=
  o.commands.length

def Branches.size (b : Branches) : Nat :=
  b.commands.length

/-- The index of the end of a block whose further branches start at an index. -/
def Branches.endAt (index : Nat) : Branches → Nat
  | .close _ _ => index
  | .last _ _ body _ _ => index + 1 + body.size
  | .also _ _ body more => more.endAt (index + 1 + body.size)

mutual

/-- The links of the branches in an outline that starts at an index. -/
def Outline.links (index : Nat) : Outline → BlockMap
  | .nil => []
  | .leaf _ _ rest => rest.links (index + 1)
  | .block _ _ body more rest =>
    let moreAt := index + 1 + body.size
    (index, ⟨moreAt, more.endAt moreAt⟩) :: (body.links (index + 1) ++
      (more.links moreAt ++ rest.links (moreAt + more.size)))

def Branches.links (index : Nat) : Branches → BlockMap
  | .close _ _ => []
  | .last _ _ body _ _ =>
    let closeAt := index + 1 + body.size
    (index, ⟨closeAt, closeAt⟩) :: body.links (index + 1)
  | .also _ _ body more =>
    let moreAt := index + 1 + body.size
    (index, ⟨moreAt, more.endAt moreAt⟩) :: (body.links (index + 1) ++ more.links moreAt)

end

@[simp] theorem Outline.size_nil : Outline.nil.size = 0 := rfl

@[simp] theorem Outline.size_leaf (c : Command) (hc : c.role = .none) (rest : Outline) :
    (Outline.leaf c hc rest).size = rest.size + 1 := by
  simp [size, commands]

@[simp] theorem Outline.size_block (c : Command) (hc : c.role = .if) (body : Outline)
    (more : Branches) (rest : Outline) :
    (Outline.block c hc body more rest).size = body.size + more.size + rest.size + 1 := by
  simp [size, commands, Branches.size, Nat.add_assoc]

@[simp] theorem Branches.size_close (c : Command) (hc : c.role = .endif) :
    (Branches.close c hc).size = 1 := rfl

@[simp] theorem Branches.size_last (c : Command) (hc : c.role = .else) (body : Outline)
    (close : Command) (hclose : close.role = .endif) :
    (Branches.last c hc body close hclose).size = body.size + 2 := by
  simp [size, commands, Outline.size]

@[simp] theorem Branches.size_also (c : Command) (hc : c.role = .elseif) (body : Outline)
    (more : Branches) : (Branches.also c hc body more).size = body.size + more.size + 1 := by
  simp [size, commands, Outline.size]

/-- A block ends inside its branches. -/
theorem Branches.endAt_bounds (b : Branches) (index : Nat) :
    index ≤ b.endAt index ∧ b.endAt index + 1 = index + b.size := by
  cases b with
  | close c hc => simp [endAt]
  | last c hc body close hclose =>
    simp [endAt]
    omega
  | also c hc body more =>
    have ih := more.endAt_bounds (index + 1 + body.size)
    simp [endAt]
    omega

mutual

theorem Outline.mem_links (o : Outline) {index : Nat} {e : Nat × BlockLink}
    (h : e ∈ o.links index) :
    index ≤ e.1 ∧ e.1 < e.2.next ∧ e.2.next ≤ e.2.last ∧ e.2.last < index + o.size := by
  cases o with
  | nil => cases h
  | leaf c hc rest =>
    have := rest.mem_links h
    simp
    omega
  | block c hc body more rest =>
    have hend := more.endAt_bounds (index + 1 + body.size)
    simp only [Outline.links, List.mem_cons, List.mem_append] at h
    rw [Outline.size_block]
    rcases h with rfl | h | h | h
    · dsimp only
      omega
    · have := body.mem_links h
      omega
    · have := more.mem_links h
      omega
    · have := rest.mem_links h
      omega

theorem Branches.mem_links (b : Branches) {index : Nat} {e : Nat × BlockLink}
    (h : e ∈ b.links index) :
    index ≤ e.1 ∧ e.1 < e.2.next ∧ e.2.next ≤ e.2.last ∧ e.2.last < index + b.size := by
  cases b with
  | close c hc => cases h
  | last c hc body close hclose =>
    simp only [Branches.links, List.mem_cons] at h
    rw [Branches.size_last]
    rcases h with rfl | h
    · dsimp only
      omega
    · have := body.mem_links h
      omega
  | also c hc body more =>
    have hend := more.endAt_bounds (index + 1 + body.size)
    simp only [Branches.links, List.mem_cons, List.mem_append] at h
    rw [Branches.size_also]
    rcases h with rfl | h | h
    · dsimp only
      omega
    · have := body.mem_links h
      omega
    · have := more.mem_links h
      omega

end

mutual

/-- The links of an outline stand in the order of their branches. -/
theorem Outline.links_ordered (o : Outline) (index : Nat) :
    (o.links index).Pairwise fun e f => e.1 < f.1 := by
  cases o with
  | nil => exact .nil
  | leaf c hc rest => exact rest.links_ordered (index + 1)
  | block c hc body more rest =>
    have hbody := fun g (hg : g ∈ body.links (index + 1)) => body.mem_links hg
    have hmore := fun g (hg : g ∈ more.links (index + 1 + body.size)) => more.mem_links hg
    have hrest := fun g (hg : g ∈ rest.links (index + 1 + body.size + more.size)) =>
      rest.mem_links hg
    refine List.pairwise_cons.2 ⟨fun f hf => ?_, List.pairwise_append.2
      ⟨body.links_ordered _, List.pairwise_append.2
        ⟨more.links_ordered _, rest.links_ordered _, fun e he f hf => ?_⟩, fun e he f hf => ?_⟩⟩
    · simp only [List.mem_append] at hf
      rcases hf with hf | hf | hf
      · have := hbody f hf
        omega
      · have := hmore f hf
        omega
      · have := hrest f hf
        omega
    · have := hmore e he
      have := hrest f hf
      omega
    · have := hbody e he
      rcases List.mem_append.1 hf with hf | hf
      · have := hmore f hf
        omega
      · have := hrest f hf
        omega

theorem Branches.links_ordered (b : Branches) (index : Nat) :
    (b.links index).Pairwise fun e f => e.1 < f.1 := by
  cases b with
  | close c hc => exact .nil
  | last c hc body close hclose =>
    refine List.pairwise_cons.2 ⟨fun f hf => ?_, body.links_ordered _⟩
    have := body.mem_links hf
    omega
  | also c hc body more =>
    have hmore := fun g (hg : g ∈ more.links (index + 1 + body.size)) => more.mem_links hg
    refine List.pairwise_cons.2 ⟨fun f hf => ?_, List.pairwise_append.2
      ⟨body.links_ordered _, more.links_ordered _, fun e he f hf => ?_⟩⟩
    · rcases List.mem_append.1 hf with hf | hf
      · have := body.mem_links hf
        omega
      · have := hmore f hf
        omega
    · have := body.mem_links he
      have := hmore f hf
      omega

end

theorem BlockMap.mem_of_get? {m : BlockMap} {index : Nat} {link : BlockLink}
    (h : m.get? index = some link) : (index, link) ∈ m := by
  unfold get? at h
  obtain ⟨l₁, l₂, rfl, -⟩ := List.lookup_eq_some_iff.1 h
  exact List.mem_append_right _ List.mem_cons_self

/-- Looking up a branch in links that hold those of an outline in any order. -/
theorem BlockMap.get?_of_mem {m : BlockMap} {l : BlockMap}
    (hl : l.Pairwise fun e f => e.1 < f.1) (hm : ∀ e, e ∈ m ↔ e ∈ l) {index : Nat}
    {link : BlockLink} (h : (index, link) ∈ l) : m.get? index = some link := by
  have hunique : ∀ other, (index, other) ∈ m → other = link := by
    intro other ho
    have hne : ∀ e ∈ l, ∀ f ∈ l, e.1 = f.1 → e = f := by
      clear h hm ho
      induction hl with
      | nil =>
        intro e he
        cases he
      | cons hlt _ ih =>
        intro e he f hf hef
        rcases List.mem_cons.1 he with rfl | he' <;> rcases List.mem_cons.1 hf with rfl | hf'
        · rfl
        · have := hlt f hf'
          omega
        · have := hlt e he'
          omega
        · exact ih e he' f hf' hef
    exact congrArg Prod.snd (hne _ ((hm _).1 ho) _ h rfl)
  have hmem : (index, link) ∈ m := (hm _).2 h
  clear h hm hl
  unfold get?
  induction m with
  | nil => cases hmem
  | cons e rest ih =>
    obtain ⟨k, v⟩ := e
    rw [List.lookup_cons]
    by_cases hk : index = k
    · subst hk
      rw [beq_self_eq_true]
      exact congrArg some (hunique v List.mem_cons_self)
    · rw [beq_false_of_ne hk]
      refine ih (fun other ho => hunique other (List.mem_cons_of_mem _ ho)) ?_
      rcases List.mem_cons.1 hmem with h | h
      · exact absurd (congrArg Prod.fst h) hk
      · exact h

end Playhead
