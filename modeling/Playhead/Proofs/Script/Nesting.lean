import Playhead.Proofs.Script.Outline

/-!
Linking the branches of a script accepts the commands of outlines and no others, and gives the
links of the outline.
-/

namespace Playhead

namespace BlockMap

variable {script : String} {index : Nat} {c : Command} {rest : List Command} {b : OpenBlock}
  {blocks : List OpenBlock}

theorem build_leaf (hc : c.role = .none) :
    build script index blocks (c :: rest) = build script (index + 1) blocks rest := by
  conv => lhs; unfold build
  simp only [hc]

theorem build_if (hc : c.role = .if) :
    build script index blocks (c :: rest) =
      build script (index + 1) (⟨index, c.spot.line, [], false⟩ :: blocks) rest := by
  conv => lhs; unfold build
  simp only [hc]

theorem build_more (hc : c.role = .elseif ∨ c.role = .else) (hb : b.seenElse = false) :
    build script index (b :: blocks) (c :: rest) =
      build script (index + 1)
        ({ b with more := index :: b.more, seenElse := c.role = .else } :: blocks) rest := by
  conv => lhs; unfold build
  rcases hc with hc | hc <;> simp only [hc, hb] <;> rfl

theorem build_endif (hc : c.role = .endif) :
    build script index (b :: blocks) (c :: rest) =
      (build script (index + 1) blocks rest).map (b.links index ++ ·) := by
  conv => lhs; unfold build
  simp only [hc]
  cases build script (index + 1) blocks rest <;> rfl

end BlockMap

theorem map_append_map {ε α : Type} (r : Except ε (List α)) (l m : List α) :
    (r.map (m ++ ·)).map (l ++ ·) = r.map ((l ++ m) ++ ·) := by
  cases r with
  | error e => rfl
  | ok k => exact congrArg Except.ok (List.append_assoc l m k).symm

theorem map_nil_append {ε α : Type} (r : Except ε (List α)) : r.map (([] : List α) ++ ·) = r := by
  cases r <;> rfl

mutual

/-- Linking passes over the commands of an outline and gathers its links. -/
theorem Outline.build_commands (o : Outline) (script : String) (index : Nat)
    (blocks : List BlockMap.OpenBlock) (rest : List Command) :
    ∃ l : BlockMap, (∀ e, e ∈ l ↔ e ∈ o.links index) ∧
      BlockMap.build script index blocks (o.commands ++ rest) =
        (BlockMap.build script (index + o.size) blocks rest).map (l ++ ·) := by
  cases o with
  | nil => exact ⟨[], fun _ => Iff.rfl, (map_nil_append _).symm⟩
  | leaf c hc more =>
    obtain ⟨l, hl, hb⟩ := more.build_commands script (index + 1) blocks rest
    refine ⟨l, hl, ?_⟩
    rw [Outline.commands, List.cons_append, BlockMap.build_leaf hc, hb, Outline.size_leaf,
      Nat.add_right_comm, Nat.add_assoc]
  | block c hc body more after =>
    obtain ⟨l₁, hl₁, hb₁⟩ := body.build_commands script (index + 1)
      (⟨index, c.spot.line, [], false⟩ :: blocks) (more.commands ++ (after.commands ++ rest))
    obtain ⟨l₂, hl₂, hb₂⟩ := more.build_commands script (index + 1 + body.size)
      ⟨index, c.spot.line, [], false⟩ rfl blocks (after.commands ++ rest)
    obtain ⟨l₃, hl₃, hb₃⟩ := after.build_commands script (index + 1 + body.size + more.size)
      blocks rest
    have hindex : index + 1 + body.size + more.size + after.size =
        index + (body.size + more.size + after.size + 1) := by omega
    refine ⟨l₁ ++ l₂ ++ l₃, fun e => ?_, ?_⟩
    · simp only [List.mem_append, hl₁, hl₂, hl₃, Outline.links, List.mem_cons,
        BlockMap.linkBranches, List.nil_append, List.not_mem_nil, or_false]
      grind
    · rw [Outline.commands, List.cons_append, BlockMap.build_if hc, List.append_assoc,
        List.append_assoc, hb₁, hb₂, hb₃, map_append_map, map_append_map, Outline.size_block,
        hindex]

theorem Branches.build_commands (b : Branches) (script : String) (index : Nat)
    (block : BlockMap.OpenBlock) (hblock : block.seenElse = false)
    (blocks : List BlockMap.OpenBlock) (rest : List Command) :
    ∃ l : BlockMap, (∀ e, e ∈ l ↔ e ∈ b.links index ∨
        e ∈ BlockMap.linkBranches (b.endAt index) index (block.more ++ [block.first])) ∧
      BlockMap.build script index (block :: blocks) (b.commands ++ rest) =
        (BlockMap.build script (index + b.size) blocks rest).map (l ++ ·) := by
  cases b with
  | close c hc =>
    refine ⟨block.links index, fun e => ?_, BlockMap.build_endif hc⟩
    simp only [Branches.links, List.not_mem_nil, false_or]
    rfl
  | last c hc body close hclose =>
    obtain ⟨l, hl, hb⟩ := body.build_commands script (index + 1)
      ({ block with more := index :: block.more, seenElse := c.role = .else } :: blocks)
      (close :: rest)
    have hindex : index + 1 + body.size + 1 = index + (body.size + 2) := by omega
    refine ⟨l ++ BlockMap.OpenBlock.links
      { block with more := index :: block.more, seenElse := c.role = .else }
      (index + 1 + body.size), fun e => ?_, ?_⟩
    · simp only [List.mem_append, hl, Branches.links, List.mem_cons, BlockMap.OpenBlock.links,
        List.cons_append, BlockMap.linkBranches, Branches.endAt]
      grind
    · rw [Branches.commands, List.cons_append, BlockMap.build_more (.inr hc) hblock,
        List.append_assoc, List.singleton_append, hb, BlockMap.build_endif hclose, map_append_map,
        Branches.size_last, hindex]
  | also c hc body more =>
    obtain ⟨l₁, hl₁, hb₁⟩ := body.build_commands script (index + 1)
      ({ block with more := index :: block.more, seenElse := c.role = .else } :: blocks)
      (more.commands ++ rest)
    obtain ⟨l₂, hl₂, hb₂⟩ := more.build_commands script (index + 1 + body.size)
      { block with more := index :: block.more, seenElse := c.role = .else }
      (by simp [hc]) blocks rest
    have hindex : index + 1 + body.size + more.size =
        index + (body.size + more.size + 1) := by omega
    refine ⟨l₁ ++ l₂, fun e => ?_, ?_⟩
    · simp only [List.mem_append, hl₁, hl₂, Branches.links, List.mem_cons, List.cons_append,
        BlockMap.linkBranches, Branches.endAt]
      grind
    · rw [Branches.commands, List.cons_append, BlockMap.build_more (.inl hc) hblock,
        List.append_assoc, hb₁, hb₂, map_append_map, Branches.size_also, hindex]

end

namespace BlockMap

/-- Commands as they are linked inside open blocks: an outline, then the rest of the innermost
block and what is linked outside of it. Behind its `else` a block has no branch left to take. -/
def Outlined (script : String) (commands : List Command) : List OpenBlock → Prop
  | [] => ∃ o : Outline, o.commands = commands
  | block :: blocks =>
    ∃ (body : Outline) (more : Branches) (rest : List Command) (index : Nat) (m : BlockMap),
      commands = body.commands ++ (more.commands ++ rest) ∧
      build script index blocks rest = .ok m ∧
      (block.seenElse = true → ∃ c hc, more = .close c hc)

theorem Outlined.leaf (hc : c.role = .none) (h : Outlined script rest blocks) :
    Outlined script (c :: rest) blocks := by
  cases blocks with
  | nil =>
    obtain ⟨o, ho⟩ := h
    exact ⟨.leaf c hc o, by rw [Outline.commands, ho]⟩
  | cons block blocks =>
    obtain ⟨body, more, after, index, m, he, hb, hs⟩ := h
    refine ⟨.leaf c hc body, more, after, index, m, ?_, hb, hs⟩
    rw [Outline.commands, he]
    rfl

theorem Outlined.block (hc : c.role = .if) (body : Outline) (more : Branches)
    (h : Outlined script rest blocks) :
    Outlined script (c :: (body.commands ++ (more.commands ++ rest))) blocks := by
  cases blocks with
  | nil =>
    obtain ⟨o, ho⟩ := h
    exact ⟨.block c hc body more o, by rw [Outline.commands, ho]⟩
  | cons block blocks =>
    obtain ⟨body', more', after, index, m, he, hb, hs⟩ := h
    refine ⟨.block c hc body more body', more', after, index, m, ?_, hb, hs⟩
    rw [Outline.commands, he]
    simp

theorem Outlined.also {block : OpenBlock} (hc : c.role = .elseif) (hb : b.seenElse = false)
    (h : Outlined script rest (block :: blocks)) : Outlined script (c :: rest) (b :: blocks) := by
  obtain ⟨body, more, after, index, m, he, hbuild, -⟩ := h
  refine ⟨.nil, .also c hc body more, after, index, m, ?_, hbuild, fun hs => ?_⟩
  · rw [Outline.commands, Branches.commands, he]
    simp
  · rw [hb] at hs
    cases hs

theorem Outlined.last {block : OpenBlock} (hc : c.role = .else) (hb : b.seenElse = false)
    (hblock : block.seenElse = true) (h : Outlined script rest (block :: blocks)) :
    Outlined script (c :: rest) (b :: blocks) := by
  obtain ⟨body, more, after, index, m, he, hbuild, hs⟩ := h
  obtain ⟨close, hclose, rfl⟩ := hs hblock
  refine ⟨.nil, .last c hc body close hclose, after, index, m, ?_, hbuild, fun hs => ?_⟩
  · rw [Outline.commands, Branches.commands, he, Branches.commands]
    simp
  · rw [hb] at hs
    cases hs

theorem Outlined.close {m : BlockMap} (hc : c.role = .endif)
    (h : build script index blocks rest = .ok m) : Outlined script (c :: rest) (b :: blocks) :=
  ⟨.nil, .close c hc, rest, index, m, rfl, h, fun _ => ⟨c, hc, rfl⟩⟩

/-- A further branch is linked inside a block whose `else` has not been met. -/
theorem exists_open_of_build {m : BlockMap} (hc : c.role = .elseif ∨ c.role = .else)
    (h : build script index blocks (c :: rest) = .ok m) :
    ∃ b blocks', blocks = b :: blocks' ∧ b.seenElse = false := by
  cases blocks with
  | nil => rcases hc with hc | hc <;> simp [build, hc] at h
  | cons b blocks =>
    cases hseen : b.seenElse with
    | true => rcases hc with hc | hc <;> simp [build, hc, hseen] at h
    | false => exact ⟨b, blocks, rfl, hseen⟩

/-- Commands that can be linked inside open blocks are outlined in them. The induction is on a
bound of their number, as what is behind a block is linked apart from the block. -/
theorem outlined_of_build (script : String) (n : Nat) (commands : List Command)
    (hn : commands.length ≤ n) (index : Nat) (blocks : List OpenBlock) {m : BlockMap}
    (h : build script index blocks commands = .ok m) : Outlined script commands blocks := by
  induction n generalizing commands index blocks m with
  | zero =>
    obtain rfl := List.length_eq_zero_iff.1 (Nat.le_zero.1 hn)
    cases blocks with
    | nil => exact ⟨.nil, rfl⟩
    | cons block blocks => cases h
  | succ n ih =>
    cases commands with
    | nil =>
      cases blocks with
      | nil => exact ⟨.nil, rfl⟩
      | cons block blocks => cases h
    | cons c rest =>
      have hlen : rest.length ≤ n := Nat.le_of_succ_le_succ hn
      cases hc : c.role with
      | none =>
        rw [build_leaf hc] at h
        exact .leaf hc (ih rest hlen _ blocks h)
      | «if» =>
        rw [build_if hc] at h
        obtain ⟨body, more, after, index', m', rfl, hb, -⟩ := ih rest hlen _ _ h
        have hafter : after.length ≤ n := by
          simp only [List.length_append] at hlen
          omega
        exact .block hc body more (ih after hafter _ blocks hb)
      | «elseif» =>
        obtain ⟨b, blocks, rfl, hseen⟩ := exists_open_of_build (.inl hc) h
        rw [build_more (.inl hc) hseen] at h
        exact .also hc hseen (ih rest hlen _ _ h)
      | «else» =>
        obtain ⟨b, blocks, rfl, hseen⟩ := exists_open_of_build (.inr hc) h
        rw [build_more (.inr hc) hseen] at h
        exact .last hc hseen (decide_eq_true hc) (ih rest hlen _ _ h)
      | endif =>
        cases blocks with
        | nil => simp [build, hc] at h
        | cons b blocks =>
          rw [build_endif hc] at h
          cases hb : build script (index + 1) blocks rest with
          | error e =>
            rw [hb] at h
            cases h
          | ok m' => exact .close hc hb

end BlockMap

/-- Scripts that can be linked are outlines. -/
theorem BlockMap.exists_outline_of_ofCommands {script : String} {commands : List Command}
    {m : BlockMap} (h : ofCommands script commands = .ok m) :
    ∃ o : Outline, o.commands = commands :=
  outlined_of_build script commands.length commands (Nat.le_refl _) 0 [] h

/-- The links of a script are those of its outline. -/
theorem BlockMap.mem_ofCommands {script : String} {o : Outline} {m : BlockMap}
    (h : ofCommands script o.commands = .ok m) (e : Nat × BlockLink) :
    e ∈ m ↔ e ∈ o.links 0 := by
  obtain ⟨l, hl, hb⟩ := o.build_commands script 0 [] []
  rw [List.append_nil] at hb
  rw [ofCommands, hb] at h
  cases h
  show e ∈ l ++ [] ↔ _
  rw [List.append_nil]
  exact hl e

end Playhead
