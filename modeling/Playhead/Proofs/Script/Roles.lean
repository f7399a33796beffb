import Playhead.Proofs.Script.Nesting

/-!
The grammar of the parts commands play in conditional blocks: a script can be linked exactly when
the roles of its commands are whole blocks.
-/

namespace Playhead

/-- What follows the first branch of a block: its further branches by their bodies, then its end. -/
def BlockRole.branches (also : List (List BlockRole)) (last : Option (List BlockRole)) :
    List BlockRole :=
  also.flatMap (.elseif :: ·) ++ (last.elim [] (.else :: ·) ++ [.endif])

/-- Roles in which every block is whole: plain commands and blocks, one after the other. -/
inductive WholeBlocks : List BlockRole → Prop where
  | nil : WholeBlocks []
  | leaf {rest : List BlockRole} (hrest : WholeBlocks rest) : WholeBlocks (.none :: rest)
  /-- `if`, any number of `elseif`, at most one `else` and `endif`. -/
  | block {body rest : List BlockRole} {also : List (List BlockRole)}
      {last : Option (List BlockRole)} (hbody : WholeBlocks body)
      (halso : ∀ b ∈ also, WholeBlocks b) (hlast : ∀ b ∈ last, WholeBlocks b)
      (hrest : WholeBlocks rest) :
      WholeBlocks (.if :: (body ++ (BlockRole.branches also last ++ rest)))

namespace BlockRole

theorem branches_nil_some (body : List BlockRole) :
    branches [] (some body) = .else :: (body ++ [.endif]) := rfl

theorem branches_cons (body : List BlockRole) (also : List (List BlockRole))
    (last : Option (List BlockRole)) :
    branches (body :: also) last = .elseif :: (body ++ branches also last) := by
  simp [branches]

end BlockRole

def Outline.roles (o : Outline) : List BlockRole :=
  o.commands.map (·.role)

def Branches.roles (b : Branches) : List BlockRole :=
  b.commands.map (·.role)

@[simp] theorem Outline.length_roles (o : Outline) : o.roles.length = o.size :=
  List.length_map _

@[simp] theorem Branches.length_roles (b : Branches) : b.roles.length = b.size :=
  List.length_map _

section

variable (c close : Command) (body rest : Outline) (more : Branches)

@[simp] theorem Outline.roles_nil : Outline.nil.roles = [] := rfl

@[simp] theorem Outline.roles_leaf (hc : c.role = .none) :
    (Outline.leaf c hc rest).roles = .none :: rest.roles := by
  simp [roles, commands, hc]

@[simp] theorem Outline.roles_block (hc : c.role = .if) :
    (Outline.block c hc body more rest).roles =
      .if :: (body.roles ++ (more.roles ++ rest.roles)) := by
  simp [roles, commands, Branches.roles, hc]

@[simp] theorem Branches.roles_close (hc : c.role = .endif) :
    (Branches.close c hc).roles = [.endif] := by
  simp [roles, commands, hc]

@[simp] theorem Branches.roles_last (hc : c.role = .else) (hclose : close.role = .endif) :
    (Branches.last c hc body close hclose).roles = .else :: (body.roles ++ [.endif]) := by
  simp [roles, commands, Outline.roles, hc, hclose]

@[simp] theorem Branches.roles_also (hc : c.role = .elseif) :
    (Branches.also c hc body more).roles = .elseif :: (body.roles ++ more.roles) := by
  simp [roles, commands, Outline.roles, hc]

end

mutual

/-- The roles of an outline are whole blocks. -/
theorem Outline.wholeBlocks (o : Outline) : WholeBlocks o.roles := by
  cases o with
  | nil => exact .nil
  | leaf c hc rest =>
    rw [Outline.roles_leaf]
    exact .leaf rest.wholeBlocks
  | block c hc body more rest =>
    obtain ⟨also, last, halso, hlast, hmore⟩ := more.exists_bodies
    rw [Outline.roles_block, hmore]
    exact .block body.wholeBlocks halso hlast rest.wholeBlocks

theorem Branches.exists_bodies (b : Branches) :
    ∃ also last, (∀ r ∈ also, WholeBlocks r) ∧ (∀ r ∈ last, WholeBlocks r) ∧
      b.roles = BlockRole.branches also last := by
  cases b with
  | close c hc =>
    exact ⟨[], none, List.forall_mem_nil _, fun r hr => absurd hr (Option.not_mem_none r),
      Branches.roles_close c hc⟩
  | last c hc body close hclose =>
    refine ⟨[], some body.roles, List.forall_mem_nil _, fun r hr => ?_,
      Branches.roles_last c close body hc hclose⟩
    obtain rfl := Option.some.inj hr
    exact body.wholeBlocks
  | also c hc body more =>
    obtain ⟨also, last, halso, hlast, hmore⟩ := more.exists_bodies
    refine ⟨body.roles :: also, last, List.forall_mem_cons.2 ⟨body.wholeBlocks, halso⟩, hlast, ?_⟩
    rw [Branches.roles_also, BlockRole.branches_cons, hmore]

end

/-- Commands with the roles of further branches are branches if those with the roles of a body are
outlines. -/
theorem BlockRole.exists_branches {also : List (List BlockRole)} {last : Option (List BlockRole)}
    (halso : ∀ r ∈ also, ∀ commands : List Command, commands.map (·.role) = r →
      ∃ o : Outline, o.commands = commands)
    (hlast : ∀ r ∈ last, ∀ commands : List Command, commands.map (·.role) = r →
      ∃ o : Outline, o.commands = commands)
    {commands : List Command} (h : commands.map (·.role) = branches also last) :
    ∃ b : Branches, b.commands = commands := by
  induction also generalizing commands with
  | nil =>
    cases last with
    | none =>
      obtain ⟨c, after, rfl, hc, hafter⟩ := List.map_eq_cons_iff.1 h
      obtain rfl := List.map_eq_nil_iff.1 hafter
      exact ⟨.close c hc, rfl⟩
    | some body =>
      obtain ⟨c, after, rfl, hc, hafter⟩ := List.map_eq_cons_iff.1 h
      obtain ⟨inner, ends, rfl, hinner, hends⟩ := List.map_eq_append_iff.1 hafter
      obtain ⟨close, past, rfl, hclose, hpast⟩ := List.map_eq_cons_iff.1 hends
      obtain rfl := List.map_eq_nil_iff.1 hpast
      obtain ⟨o, rfl⟩ := hlast body rfl inner hinner
      exact ⟨.last c hc o close hclose, rfl⟩
  | cons body also ih =>
    rw [branches_cons] at h
    obtain ⟨c, after, rfl, hc, hafter⟩ := List.map_eq_cons_iff.1 h
    obtain ⟨inner, more, rfl, hinner, hmore⟩ := List.map_eq_append_iff.1 hafter
    obtain ⟨o, rfl⟩ := halso body List.mem_cons_self inner hinner
    obtain ⟨b, rfl⟩ := ih (fun r hr => halso r (List.mem_cons_of_mem _ hr)) hmore
    exact ⟨.also c hc o b, rfl⟩

/-- Commands whose roles are whole blocks are those of an outline. -/
theorem WholeBlocks.exists_outline {roles : List BlockRole} (h : WholeBlocks roles) :
    ∀ commands : List Command, commands.map (·.role) = roles →
      ∃ o : Outline, o.commands = commands := by
  induction h with
  | nil =>
    intro commands hc
    exact ⟨.nil, (List.map_eq_nil_iff.1 hc).symm⟩
  | leaf _ ih =>
    intro commands h
    obtain ⟨c, rest, rfl, hc, hrest⟩ := List.map_eq_cons_iff.1 h
    obtain ⟨o, rfl⟩ := ih rest hrest
    exact ⟨.leaf c hc o, rfl⟩
  | block _ _ _ _ ihbody ihalso ihlast ihrest =>
    intro commands h
    obtain ⟨c, after, rfl, hc, hafter⟩ := List.map_eq_cons_iff.1 h
    obtain ⟨inner, outer, rfl, hinner, houter⟩ := List.map_eq_append_iff.1 hafter
    obtain ⟨more, rest, rfl, hmore, hrest⟩ := List.map_eq_append_iff.1 houter
    obtain ⟨body, rfl⟩ := ihbody inner hinner
    obtain ⟨b, rfl⟩ := BlockRole.exists_branches ihalso ihlast hmore
    obtain ⟨o, rfl⟩ := ihrest rest hrest
    exact ⟨.block c hc body b o, rfl⟩

/-- The commands of an outline can be linked. -/
theorem Outline.exists_ofCommands (o : Outline) (script : String) :
    ∃ m, BlockMap.ofCommands script o.commands = .ok m := by
  obtain ⟨l, -, hb⟩ := o.build_commands script 0 [] []
  rw [List.append_nil] at hb
  exact ⟨l ++ [], hb⟩

/-- A script can be linked exactly when the roles of its commands are whole blocks. -/
theorem BlockMap.exists_ofCommands_iff (script : String) (commands : List Command) :
    (∃ m, ofCommands script commands = .ok m) ↔ WholeBlocks (commands.map (·.role)) := by
  constructor
  · rintro ⟨m, hm⟩
    obtain ⟨o, rfl⟩ := exists_outline_of_ofCommands hm
    exact o.wholeBlocks
  · intro h
    obtain ⟨o, rfl⟩ := h.exists_outline commands rfl
    exact o.exists_ofCommands script

end Playhead
