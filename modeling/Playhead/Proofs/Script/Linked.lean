import Mathlib.Logic.Relation
import Playhead.Proofs.Script.Roles

/-!
The links of a script: each branch is linked to what ends it in its own block, and to the end of
that block.
-/

namespace Playhead

namespace BlockRole

/-- The roles that begin a branch of a block. -/
inductive IsBranch : BlockRole → Prop where
  | if : IsBranch .if
  | elseif : IsBranch .elseif
  | else : IsBranch .else

/-- The roles that end a branch: those of a further branch and of the end of the block. -/
inductive EndsBranch : BlockRole → Prop where
  | elseif : EndsBranch .elseif
  | else : EndsBranch .else
  | endif : EndsBranch .endif

/-- Roles that stand one after the other from an index on. -/
def At (roles : List BlockRole) (i : Nat) (part : List BlockRole) : Prop :=
  part <+: roles.drop i

/-- What is left of roles from the one that ends the branch they begin in, where `n` blocks were
opened on the way. -/
def dropBlocks : Nat → List BlockRole → List BlockRole
  | _, [] => []
  | n, .none :: rest => dropBlocks n rest
  | n, .if :: rest => dropBlocks (n + 1) rest
  | 0, r :: rest => r :: rest
  | n + 1, .endif :: rest => dropBlocks n rest
  | n + 1, _ :: rest => dropBlocks (n + 1) rest

end BlockRole

/-- The command at `j` is the next branch of the block of the branch at `i`, or its end: what
stands between the two are whole blocks. -/
def NextBranch (roles : List BlockRole) (i j : Nat) : Prop :=
  ∃ (r : BlockRole) (body : List BlockRole) (s : BlockRole), r.IsBranch ∧ WholeBlocks body ∧
    s.EndsBranch ∧ BlockRole.At roles i (r :: (body ++ [s])) ∧ j = i + 1 + body.length

/-- The command at `j` is the end of the block of the branch at `i`: it is reached from branch to
branch of that block. -/
def BlockEnd (roles : List BlockRole) (i j : Nat) : Prop :=
  Relation.TransGen (NextBranch roles) i j ∧ roles[j]? = some .endif

/-- The links of commands with these roles: those of the branches, each to the next branch of its
own block and to the end of that block. -/
structure BlockMap.Links (m : BlockMap) (roles : List BlockRole) : Prop where
  keys : ∀ i, (∃ link, m.get? i = some link) ↔ ∃ r, roles[i]? = some r ∧ r.IsBranch
  next : ∀ i link, m.get? i = some link → ∀ j, NextBranch roles i j ↔ j = link.next
  last : ∀ i link, m.get? i = some link → ∀ j, BlockEnd roles i j ↔ j = link.last
  bounds : ∀ i link, m.get? i = some link →
    i < link.next ∧ link.next ≤ link.last ∧ link.last < roles.length

variable {roles : List BlockRole} {i j k : Nat}

namespace BlockRole

variable {r s : BlockRole} {part more : List BlockRole}

namespace At

theorem head (h : At roles i (r :: part)) : roles[i]? = some r := by
  obtain ⟨after, h⟩ := h
  rw [← Nat.add_zero i, ← List.getElem?_drop, ← h]
  rfl

theorem left (h : At roles i (part ++ more)) : At roles i part :=
  (List.prefix_append part more).trans h

theorem right (h : At roles i (part ++ more)) : At roles (i + part.length) more := by
  obtain ⟨after, h⟩ := h
  refine ⟨after, ?_⟩
  rw [← List.drop_drop, ← h, List.append_assoc, List.drop_left]

theorem tail (h : At roles i (r :: part)) : At roles (i + 1) part :=
  @right _ _ [r] part h

/-- Two parts at one index agree on what they begin with. -/
theorem exists_append (h : At roles i part) (h' : At roles i more) :
    ∃ after after', part ++ after = more ++ after' := by
  obtain ⟨after, h⟩ := h
  obtain ⟨after', h'⟩ := h'
  exact ⟨after, after', h.trans h'.symm⟩

end At

theorem EndsBranch.dropBlocks (hs : s.EndsBranch) :
    dropBlocks 0 (s :: part) = s :: part := by
  cases hs <;> rfl

theorem dropBlocks_branches {also : List (List BlockRole)} {last : Option (List BlockRole)}
    (halso : ∀ b ∈ also, ∀ n rest, dropBlocks n (b ++ rest) = dropBlocks n rest)
    (hlast : ∀ b ∈ last, ∀ n rest, dropBlocks n (b ++ rest) = dropBlocks n rest) (n : Nat)
    (rest : List BlockRole) :
    dropBlocks (n + 1) (branches also last ++ rest) = dropBlocks n rest := by
  induction also with
  | nil =>
    cases last with
    | none => rfl
    | some body =>
      rw [branches_nil_some, List.cons_append, List.append_assoc]
      exact hlast body rfl (n + 1) (.endif :: rest)
  | cons body also ih =>
    rw [branches_cons, List.cons_append, List.append_assoc]
    exact (halso body List.mem_cons_self (n + 1) _).trans
      (ih fun b hb => halso b (List.mem_cons_of_mem _ hb))

end BlockRole

open BlockRole

/-- Whole blocks are passed over. -/
theorem WholeBlocks.dropBlocks {body : List BlockRole} (h : WholeBlocks body) :
    ∀ n rest, BlockRole.dropBlocks n (body ++ rest) = BlockRole.dropBlocks n rest := by
  induction h with
  | nil => exact fun _ _ => rfl
  | leaf _ ih => exact ih
  | @block body rest also last _ _ _ _ ihbody ihalso ihlast ihrest =>
    intro n after
    calc BlockRole.dropBlocks n (.if :: (body ++ (branches also last ++ rest)) ++ after)
        = BlockRole.dropBlocks (n + 1) (body ++ (branches also last ++ (rest ++ after))) := by
          rw [List.cons_append, List.append_assoc, List.append_assoc]
          rfl
      _ = BlockRole.dropBlocks (n + 1) (branches also last ++ (rest ++ after)) := ihbody _ _
      _ = BlockRole.dropBlocks n (rest ++ after) := dropBlocks_branches ihalso ihlast _ _
      _ = BlockRole.dropBlocks n after := ihrest _ _

/-- No more than one command is the next branch. -/
theorem NextBranch.unique (hj : NextBranch roles i j) (hk : NextBranch roles i k) : j = k := by
  obtain ⟨r, body, s, -, hbody, hs, hat, rfl⟩ := hj
  obtain ⟨r', body', s', -, hbody', hs', hat', rfl⟩ := hk
  obtain ⟨after, after', h⟩ := hat.tail.exists_append hat'.tail
  rw [List.append_assoc, List.append_assoc] at h
  have hleft : s :: after = s' :: after' := by
    calc s :: after = dropBlocks 0 (body ++ s :: after) := by
          rw [hbody.dropBlocks, hs.dropBlocks]
      _ = dropBlocks 0 (body' ++ s' :: after') := congrArg (dropBlocks 0) h
      _ = s' :: after' := by rw [hbody'.dropBlocks, hs'.dropBlocks]
  have hlength := congrArg List.length h
  have hafter := congrArg List.length hleft
  simp only [List.length_append, List.length_cons, List.length_nil] at hlength hafter
  omega

theorem NextBranch.ne_endif (h : NextBranch roles i j) : roles[i]? ≠ some .endif := by
  obtain ⟨r, body, s, hr, -, -, hat, -⟩ := h
  rw [hat.head]
  cases hr <;> exact fun h => nomatch h

/-- No more than one command is the end of the block of a branch. -/
theorem BlockEnd.unique (hj : BlockEnd roles i j) (hk : BlockEnd roles i k) : j = k := by
  have hunique : Relator.RightUnique (NextBranch roles) := fun _ _ _ => NextBranch.unique
  rcases Relation.ReflTransGen.total_of_right_unique hunique hj.1.to_reflTransGen
    hk.1.to_reflTransGen with h | h
  · rcases h.cases_head with rfl | ⟨_, hnext, -⟩
    · rfl
    · exact absurd hj.2 hnext.ne_endif
  · rcases h.cases_head with rfl | ⟨_, hnext, -⟩
    · rfl
    · exact absurd hk.2 hnext.ne_endif

theorem BlockEnd.of_next (h : NextBranch roles i j)
    (hj : Relation.ReflTransGen (NextBranch roles) j k ∧ roles[k]? = some .endif) :
    BlockEnd roles i k :=
  ⟨.head' h hj.1, hj.2⟩

/-- The branches of a block begin with one that ends the branch before them. -/
theorem Branches.exists_roles_eq_cons (b : Branches) :
    ∃ s rest, s.EndsBranch ∧ b.roles = s :: rest := by
  cases b with
  | close c hc => exact ⟨_, _, .endif, Branches.roles_close c hc⟩
  | last c hc body close hclose => exact ⟨_, _, .else, Branches.roles_last c close body hc hclose⟩
  | also c hc body more => exact ⟨_, _, .elseif, Branches.roles_also c body more hc⟩

/-- A branch, its body, and the branches that follow it. -/
theorem NextBranch.of_at {r : BlockRole} (hr : r.IsBranch) {body : Outline} {more : Branches}
    {rest : List BlockRole} (h : At roles i (r :: (body.roles ++ (more.roles ++ rest)))) :
    NextBranch roles i (i + 1 + body.size) := by
  obtain ⟨s, others, hs, hmore⟩ := more.exists_roles_eq_cons
  rw [hmore, List.cons_append, List.append_cons, ← List.cons_append] at h
  exact ⟨r, body.roles, s, hr, body.wholeBlocks, hs, h.left, by rw [Outline.length_roles]⟩

/-- The last branch of a block. -/
theorem NextBranch.of_at_last {body : Outline}
    (h : At roles i (.else :: (body.roles ++ [.endif]))) :
    NextBranch roles i (i + 1 + body.size) :=
  ⟨.else, body.roles, .endif, .else, body.wholeBlocks, .endif, h, by rw [Outline.length_roles]⟩

/-- From its first further branch the end of a block is reached branch by branch. -/
theorem Branches.reaches_end (b : Branches) {i : Nat} (h : At roles i b.roles) :
    Relation.ReflTransGen (NextBranch roles) i (b.endAt i) ∧
      roles[b.endAt i]? = some .endif := by
  cases b with
  | close c hc =>
    rw [Branches.roles_close] at h
    exact ⟨.refl, h.head⟩
  | last c hc body close hclose =>
    rw [Branches.roles_last] at h
    have hend := h.tail.right
    rw [Outline.length_roles] at hend
    exact ⟨.single (.of_at_last h), hend.head⟩
  | also c hc body more =>
    rw [Branches.roles_also] at h
    have hmore := h.tail.right
    rw [Outline.length_roles] at hmore
    rw [← List.append_nil more.roles] at h
    have hrest := more.reaches_end hmore
    exact ⟨.head (.of_at .elseif h) hrest.1, hrest.2⟩

mutual

/-- Every link of an outline leads to the next branch and to the end of its block. -/
theorem Outline.links_lead (o : Outline) {i : Nat} (h : At roles i o.roles)
    {e : Nat × BlockLink} (he : e ∈ o.links i) :
    NextBranch roles e.1 e.2.next ∧ BlockEnd roles e.1 e.2.last := by
  cases o with
  | nil => cases he
  | leaf c hc rest =>
    rw [Outline.roles_leaf] at h
    exact rest.links_lead h.tail he
  | block c hc body more rest =>
    rw [Outline.roles_block] at h
    have hnext := NextBranch.of_at .if h
    have hmore := h.tail.right
    rw [Outline.length_roles] at hmore
    have hrest := hmore.right
    rw [Branches.length_roles] at hrest
    simp only [Outline.links, List.mem_cons, List.mem_append] at he
    rcases he with rfl | he | he | he
    · exact ⟨hnext, .of_next hnext (more.reaches_end hmore.left)⟩
    · exact body.links_lead h.tail.left he
    · exact more.links_lead hmore.left he
    · exact rest.links_lead hrest he

theorem Branches.links_lead (b : Branches) {i : Nat} (h : At roles i b.roles)
    {e : Nat × BlockLink} (he : e ∈ b.links i) :
    NextBranch roles e.1 e.2.next ∧ BlockEnd roles e.1 e.2.last := by
  cases b with
  | close c hc => cases he
  | last c hc body close hclose =>
    have hend := (Branches.last c hc body close hclose).reaches_end h
    rw [Branches.roles_last] at h
    have hnext := NextBranch.of_at_last h
    simp only [Branches.links, List.mem_cons] at he
    rcases he with rfl | he
    · exact ⟨hnext, .of_next hnext ⟨.refl, hend.2⟩⟩
    · exact body.links_lead h.tail.left he
  | also c hc body more =>
    rw [Branches.roles_also] at h
    have hmore := h.tail.right
    rw [Outline.length_roles] at hmore
    rw [← List.append_nil more.roles] at h
    have hnext := NextBranch.of_at .elseif h
    simp only [Branches.links, List.mem_cons, List.mem_append] at he
    rcases he with rfl | he | he
    · exact ⟨hnext, .of_next hnext (more.reaches_end hmore)⟩
    · exact body.links_lead h.tail.left he
    · exact more.links_lead hmore he

end

/-- An index into two lists, one after the other, is one into the first or into the second. -/
theorem exists_getElem?_of_append {α : Type} {l m : List α} {a : α} (h : (l ++ m)[k]? = some a) :
    l[k]? = some a ∨ ∃ j, k = l.length + j ∧ m[j]? = some a := by
  rw [List.getElem?_append] at h
  split at h
  · exact .inl h
  · exact .inr ⟨k - l.length, by omega, h⟩

mutual

/-- Every branch of an outline has a link. -/
theorem Outline.exists_link (o : Outline) (i : Nat) {k : Nat} {r : BlockRole}
    (hr : r.IsBranch) (h : o.roles[k]? = some r) : ∃ link, (i + k, link) ∈ o.links i := by
  cases o with
  | nil => cases h
  | leaf c hc rest =>
    rw [Outline.roles_leaf] at h
    cases k with
    | zero =>
      cases h
      cases hr
    | succ k =>
      obtain ⟨link, hlink⟩ := rest.exists_link (i + 1) hr h
      exact ⟨link, by rwa [Nat.add_comm k, ← Nat.add_assoc]⟩
  | block c hc body more rest =>
    rw [Outline.roles_block] at h
    cases k with
    | zero => exact ⟨_, List.mem_cons_self⟩
    | succ k =>
      rw [Nat.add_comm k, ← Nat.add_assoc]
      simp only [Outline.links, List.mem_cons, List.mem_append]
      rcases exists_getElem?_of_append h with hbody | ⟨j, rfl, hafter⟩
      · obtain ⟨link, hlink⟩ := body.exists_link (i + 1) hr hbody
        exact ⟨link, .inr (.inl hlink)⟩
      rw [Outline.length_roles, ← Nat.add_assoc]
      rcases exists_getElem?_of_append hafter with hmore | ⟨j, rfl, hrest⟩
      · obtain ⟨link, hlink⟩ := more.exists_link (i + 1 + body.size) hr hmore
        exact ⟨link, .inr (.inr (.inl hlink))⟩
      rw [Branches.length_roles, ← Nat.add_assoc]
      obtain ⟨link, hlink⟩ := rest.exists_link (i + 1 + body.size + more.size) hr hrest
      exact ⟨link, .inr (.inr (.inr hlink))⟩

theorem Branches.exists_link (b : Branches) (i : Nat) {k : Nat} {r : BlockRole}
    (hr : r.IsBranch) (h : b.roles[k]? = some r) : ∃ link, (i + k, link) ∈ b.links i := by
  cases b with
  | close c hc =>
    rw [Branches.roles_close] at h
    obtain rfl := List.mem_singleton.1 (List.mem_of_getElem? h)
    cases hr
  | last c hc body close hclose =>
    rw [Branches.roles_last] at h
    cases k with
    | zero => exact ⟨_, List.mem_cons_self⟩
    | succ k =>
      rw [Nat.add_comm k, ← Nat.add_assoc]
      rcases exists_getElem?_of_append h with hbody | ⟨j, rfl, hclose⟩
      · obtain ⟨link, hlink⟩ := body.exists_link (i + 1) hr hbody
        exact ⟨link, List.mem_cons_of_mem _ hlink⟩
      · obtain rfl := List.mem_singleton.1 (List.mem_of_getElem? hclose)
        cases hr
  | also c hc body more =>
    rw [Branches.roles_also] at h
    cases k with
    | zero => exact ⟨_, List.mem_cons_self⟩
    | succ k =>
      rw [Nat.add_comm k, ← Nat.add_assoc]
      simp only [Branches.links, List.mem_cons, List.mem_append]
      rcases exists_getElem?_of_append h with hbody | ⟨j, rfl, hmore⟩
      · obtain ⟨link, hlink⟩ := body.exists_link (i + 1) hr hbody
        exact ⟨link, .inr (.inl hlink)⟩
      rw [Outline.length_roles, ← Nat.add_assoc]
      obtain ⟨link, hlink⟩ := more.exists_link (i + 1 + body.size) hr hmore
      exact ⟨link, .inr (.inr hlink)⟩

end

/-- A map that holds the links of an outline links its branches. -/
theorem Outline.blockMap_links (o : Outline) {m : BlockMap} (hm : ∀ e, e ∈ m ↔ e ∈ o.links 0) :
    m.Links o.roles := by
  have hmem : ∀ {i : Nat} {link : BlockLink}, m.get? i = some link → (i, link) ∈ o.links 0 :=
    fun h => (hm _).1 (BlockMap.mem_of_get? h)
  have hlead : ∀ {i : Nat} {link : BlockLink}, m.get? i = some link →
      NextBranch o.roles i link.next ∧ BlockEnd o.roles i link.last :=
    fun h => o.links_lead (i := 0) (List.prefix_refl _) (hmem h)
  refine ⟨fun i => ⟨?_, ?_⟩, fun i link h j => ⟨?_, ?_⟩, fun i link h j => ⟨?_, ?_⟩,
    fun i link h => ?_⟩
  · rintro ⟨link, h⟩
    obtain ⟨r, _, _, hr, -, -, hat, -⟩ := (hlead h).1
    exact ⟨r, hat.head, hr⟩
  · rintro ⟨r, h, hr⟩
    obtain ⟨link, hlink⟩ := o.exists_link 0 hr h
    rw [Nat.zero_add] at hlink
    exact ⟨link, BlockMap.get?_of_mem (o.links_ordered 0) hm hlink⟩
  · exact fun hj => hj.unique (hlead h).1
  · rintro rfl
    exact (hlead h).1
  · exact fun hj => hj.unique (hlead h).2
  · rintro rfl
    exact (hlead h).2
  · have hbounds := o.mem_links (hmem h)
    rw [Outline.length_roles]
    dsimp only at hbounds
    omega

/-- A script can be linked exactly when the roles of its commands are whole blocks; then its
branches are linked, and nothing else, each to the next branch of its block and to its end. -/
theorem BlockMap.ofCommands_links (script : String) (commands : List Command) :
    ((∃ m, ofCommands script commands = .ok m) ↔ WholeBlocks (commands.map (·.role))) ∧
      ∀ m, ofCommands script commands = .ok m → m.Links (commands.map (·.role)) := by
  refine ⟨exists_ofCommands_iff script commands, fun m hm => ?_⟩
  obtain ⟨o, rfl⟩ := exists_outline_of_ofCommands hm
  exact o.blockMap_links (mem_ofCommands hm)

/-- Commands of which nothing but the roles matters. -/
def BlockRole.plainCommands (roles : List BlockRole) : List Command :=
  roles.map fun r => { (default : Command) with role := r }

/-- A block inside a branch of another: the branches of each are linked to one another only. -/
theorem BlockMap.ofCommands_links_inner :
    ∃ m, ofCommands "main" (plainCommands [.if, .none, .elseif, .if, .endif, .else, .endif]) =
        .ok m ∧
      m.Links [.if, .none, .elseif, .if, .endif, .else, .endif] ∧
      m.get? 0 = some ⟨2, 6⟩ ∧ m.get? 2 = some ⟨5, 6⟩ ∧ m.get? 3 = some ⟨4, 4⟩ :=
  ⟨_, rfl, (ofCommands_links "main" (plainCommands
    [.if, .none, .elseif, .if, .endif, .else, .endif])).2 _ rfl, rfl, rfl, rfl⟩

end Playhead
