import Mathlib.Data.List.DropRight
import Playhead.Proofs.State.Saves

/-!
What a rollback stack retains: snapshots that pass their own check, in the order of the counts at
which they were taken, and of these the newest ones that there is room for.

Main statement: whatever was done to a stack before, a push replaces the snapshots that it
supersedes and drops what has no room at the old end, as a smaller bound does, and the counter tells
how many were handed back so since the stack was cleared.
-/

namespace Playhead

/-- Snapshots that pass their own check, each taken later than those before it. -/
structure Retained (l : List Snapshot) : Prop where
  ordered : l.Pairwise fun x y => x.played < y.played
  verified : ∀ x ∈ l, x.verify = .ok ()

namespace Retained

variable {l m : List Snapshot}

theorem nil : Retained [] :=
  ⟨.nil, fun _ h => absurd h List.not_mem_nil⟩

theorem sublist (hl : Retained l) (h : m.Sublist l) : Retained m :=
  ⟨hl.ordered.sublist h, fun x hx => hl.verified x (h.subset hx)⟩

end Retained

namespace RollbackStack

variable {s : RollbackStack} {l pre : List Snapshot} {x : Snapshot}

theorem before_sublist (played : Nat) (l : List Snapshot) : (before played l).Sublist l := by
  have h := (List.dropWhile_sublist (p := fun s : Snapshot => played ≤ s.played)
    (l := l.reverse)).reverse
  rwa [List.reverse_reverse] at h

/-- Of ordered snapshots, those that were taken earlier are kept. -/
theorem played_lt_of_mem_before {played : Nat}
    (hl : l.Pairwise fun x y => x.played < y.played) (hx : x ∈ before played l) :
    x.played < played := by
  have hdrop : ∀ m : List Snapshot, m.Pairwise (fun x y => y.played < x.played) →
      ∀ y ∈ m.dropWhile fun s => played ≤ s.played, y.played < played := by
    intro m hm
    induction m with
    | nil => exact fun y hy => absurd hy List.not_mem_nil
    | cons a rest ih =>
      obtain ⟨ha, hrest⟩ := List.pairwise_cons.1 hm
      intro y hy
      rw [List.dropWhile_cons] at hy
      split at hy
      · exact ih hrest y hy
      · rename_i hle
        have hlt : a.played < played := by simpa using hle
        rcases List.mem_cons.1 hy with rfl | hy
        · exact hlt
        · exact Nat.lt_trans (ha y hy) hlt
  rw [before, List.mem_reverse] at hx
  exact hdrop _ (List.pairwise_reverse.2 hl) x hx

theorem before_eq (h : ∀ y ∈ l, y.played < x.played) : before x.played l = l := by
  unfold before
  cases hr : l.reverse with
  | nil => exact (List.reverse_eq_nil_iff.1 hr).symm
  | cons a rest =>
    have hlt := h a (List.mem_reverse.1 (hr ▸ List.mem_cons_self))
    rw [List.dropWhile_cons, if_neg (by simpa using hlt), ← hr, List.reverse_reverse]

theorem push_sublist (s : RollbackStack) (x : Snapshot) :
    (s.push x).1.snapshots.Sublist (before x.played s.snapshots ++ [x]) := by
  unfold push
  dsimp only
  split
  · exact List.sublist_append_left _ _
  · split
    · rename_i oldest rest he
      rw [he]
      split
      · exact List.sublist_cons_self _ _
      · exact List.Sublist.refl _
    · rename_i he
      exact absurd he (by simp)

theorem depth_push (s : RollbackStack) (x : Snapshot) : (s.push x).1.depth = s.depth := by
  unfold push
  dsimp only
  split
  · rfl
  · split
    · split <;> rfl
    · rfl

theorem size_before (played : Nat) (s : RollbackStack) :
    (before played s.snapshots).length ≤ s.size :=
  (before_sublist played s.snapshots).length_le

/-- A push keeps the newest of what is left and the new snapshot, as many as there is room for, and
hands back the others. -/
theorem push_eq_newest (hs : s.size ≤ s.depth) (x : Snapshot) :
    (s.push x).1.snapshots = (before x.played s.snapshots ++ [x]).rtake s.depth ∧
      (s.push x).2.toList = (before x.played s.snapshots ++ [x]).rdrop s.depth := by
  have hkept := Nat.le_trans (size_before x.played s) hs
  unfold push List.rtake List.rdrop
  dsimp only
  by_cases hdepth : s.depth = 0
  · rw [hdepth] at hkept
    have hnil : before x.played s.snapshots = [] :=
      List.eq_nil_of_length_eq_zero (Nat.le_zero.1 hkept)
    rw [if_pos hdepth, hnil, hdepth]
    exact ⟨rfl, rfl⟩
  · rw [if_neg hdepth]
    generalize before x.played s.snapshots = kept at hkept ⊢
    cases hall : kept ++ [x] with
    | nil => simp at hall
    | cons oldest rest =>
      have hlength : kept.length = rest.length := by simpa using congrArg List.length hall
      rw [hlength] at hkept
      rw [List.length_cons]
      dsimp only
      split
      · rename_i hfull
        have hone : rest.length + 1 - s.depth = 1 := by omega
        rw [hone]
        exact ⟨rfl, rfl⟩
      · rename_i hroom
        rw [Nat.sub_eq_zero_of_le (Nat.le_of_not_lt hroom)]
        exact ⟨rfl, rfl⟩

theorem size_push (hs : s.size ≤ s.depth) : (s.push x).1.size ≤ s.depth := by
  rw [size, (push_eq_newest hs x).1, List.rtake, List.length_drop]
  omega

theorem size_foldl_push (hs : s.size ≤ s.depth) (l : List Snapshot) :
    (l.foldl (fun s x => (s.push x).1) s).size ≤ s.depth := by
  induction l generalizing s with
  | nil => exact hs
  | cons x rest ih =>
    have hpush : (s.push x).1.size ≤ (s.push x).1.depth := by
      rw [depth_push]
      exact size_push hs
    exact Nat.le_trans (ih hpush) (Nat.le_of_eq (s.depth_push x))

theorem depth_foldl_push (s : RollbackStack) (l : List Snapshot) :
    (l.foldl (fun s x => (s.push x).1) s).depth = s.depth := by
  induction l generalizing s with
  | nil => rfl
  | cons x rest ih => exact (ih _).trans (s.depth_push x)

theorem size_replace (s : RollbackStack) (l : List Snapshot) :
    (s.replace l).size ≤ (s.replace l).depth := by
  have hdepth : (s.replace l).depth = s.depth := depth_foldl_push s.clear l
  rw [hdepth]
  exact size_foldl_push (s := s.clear) (Nat.zero_le _) l

/-- A push adds nothing but the new snapshot. -/
theorem mem_push {y : Snapshot} (hy : y ∈ (s.push x).1.snapshots) : y ∈ s.snapshots ∨ y = x := by
  rcases List.mem_append.1 ((s.push_sublist x).subset hy) with hy | hy
  · exact .inl ((before_sublist _ _).subset hy)
  · exact .inr (List.mem_singleton.1 hy)

theorem mem_foldl_push {y : Snapshot} (hy : y ∈ (l.foldl (fun s x => (s.push x).1) s).snapshots) :
    y ∈ s.snapshots ∨ y ∈ l := by
  induction l generalizing s with
  | nil => exact .inl hy
  | cons x rest ih =>
    rcases ih hy with hy | hy
    · rcases mem_push hy with hy | rfl
      · exact .inl hy
      · exact .inr List.mem_cons_self
    · exact .inr (List.mem_cons_of_mem _ hy)

theorem mem_replace {y : Snapshot} (hy : y ∈ (s.replace l).snapshots) : y ∈ l :=
  (mem_foldl_push (s := s.clear) hy).resolve_left List.not_mem_nil

theorem ordered_push (hs : s.snapshots.Pairwise fun x y => x.played < y.played) (x : Snapshot) :
    (s.push x).1.snapshots.Pairwise fun x y => x.played < y.played := by
  refine List.Pairwise.sublist (s.push_sublist x) (List.pairwise_append.2
    ⟨hs.sublist (before_sublist _ _), List.pairwise_singleton _ _, fun y hy z hz => ?_⟩)
  rw [List.mem_singleton.1 hz]
  exact played_lt_of_mem_before hs hy

theorem retained_push (hs : Retained s.snapshots) (hx : x.verify = .ok ()) :
    Retained (s.push x).1.snapshots := by
  refine ⟨ordered_push hs.ordered x, fun y hy => ?_⟩
  rcases mem_push hy with hy | rfl
  · exact hs.verified y hy
  · exact hx

theorem map_modifyLast {α : Type} {f : Snapshot → Snapshot} {g : Snapshot → α}
    (h : ∀ x, g (f x) = g x) (l : List Snapshot) : (modifyLast f l).map g = l.map g := by
  induction l with
  | nil => rfl
  | cons a rest ih =>
    cases rest with
    | nil => exact congrArg (fun b => [b]) (h a)
    | cons b rest => exact congrArg (g a :: ·) ih

theorem length_modifyLast (f : Snapshot → Snapshot) (l : List Snapshot) :
    (modifyLast f l).length = l.length := by
  have h := congrArg List.length (map_modifyLast (f := f) (g := fun _ => ()) (fun _ => rfl) l)
  rwa [List.length_map, List.length_map] at h

/-- Of ordered snapshots, the newest one was captured last. -/
theorem played_le_newest {y : Snapshot} (hs : s.snapshots.Pairwise fun x y => x.played < y.played)
    (hx : s.newest? = some x) (hy : y ∈ s.snapshots) : y.played ≤ x.played := by
  obtain ⟨older, hl⟩ := List.getLast?_eq_some_iff.1 hx
  rw [hl] at hs hy
  rcases List.mem_append.1 hy with hy | hy
  · exact Nat.le_of_lt ((List.pairwise_append.1 hs).2.2 y hy x (List.mem_singleton_self x))
  · exact Nat.le_of_eq (congrArg Snapshot.played (List.mem_singleton.1 hy))

theorem map_played_allowNewest (s : RollbackStack) (on : Bool) :
    (s.allowNewest on).snapshots.map Snapshot.played = s.snapshots.map Snapshot.played :=
  map_modifyLast (f := fun x => { x with allowed := on }) (fun _ => rfl) _

theorem retained_allowNewest (hs : Retained s.snapshots) (on : Bool) :
    Retained (s.allowNewest on).snapshots := by
  have hverify : (s.allowNewest on).snapshots.map Snapshot.verify =
      s.snapshots.map Snapshot.verify :=
    map_modifyLast (f := fun x => { x with allowed := on }) (fun _ => rfl) _
  constructor
  · have h := List.pairwise_map.2 hs.ordered
    rw [← map_played_allowNewest s on] at h
    exact List.pairwise_map.1 h
  · have h : ∀ v ∈ s.snapshots.map Snapshot.verify, v = .ok () :=
      List.forall_mem_map.2 hs.verified
    rw [← hverify] at h
    exact List.forall_mem_map.1 h

theorem retained_foldl_push (hs : Retained s.snapshots) (hl : ∀ x ∈ l, x.verify = .ok ()) :
    Retained (l.foldl (fun s x => (s.push x).1) s).snapshots := by
  induction l generalizing s with
  | nil => exact hs
  | cons x rest ih =>
    exact ih (retained_push hs (hl x List.mem_cons_self))
      fun y hy => hl y (List.mem_cons_of_mem _ hy)

theorem retained_replace (s : RollbackStack) (hl : ∀ x ∈ l, x.verify = .ok ()) :
    Retained (s.replace l).snapshots :=
  retained_foldl_push (s := s.clear) .nil hl

/-- A snapshot that was taken later than all others is put after them; the oldest one makes way for
it if there are too many. -/
theorem push_eq (hs : s.size ≤ s.depth) (hx : ∀ y ∈ s.snapshots, y.played < x.played) :
    (s.push x).1.snapshots = (s.snapshots ++ [x]).drop (s.size + 1 - s.depth) := by
  rw [(push_eq_newest hs x).1, before_eq hx, List.rtake, List.length_append]
  rfl

theorem foldl_push_eq (hs : s.snapshots = pre.drop (pre.length - s.depth))
    (hl : (pre ++ l).Pairwise fun x y => x.played < y.played) :
    (l.foldl (fun s x => (s.push x).1) s).snapshots =
      (pre ++ l).drop ((pre ++ l).length - s.depth) := by
  induction l generalizing s pre with
  | nil => rw [List.append_nil]; exact hs
  | cons x rest ih =>
    have hsize : s.size = pre.length - (pre.length - s.depth) := by
      unfold size
      rw [hs, List.length_drop]
    have hearlier : ∀ y ∈ s.snapshots, y.played < x.played := by
      intro y hy
      rw [hs] at hy
      exact (List.pairwise_append.1 hl).2.2 y ((List.drop_sublist _ _).subset hy) x
        List.mem_cons_self
    have hstep : (s.push x).1.snapshots =
        (pre ++ [x]).drop ((pre ++ [x]).length - (s.push x).1.depth) := by
      rw [push_eq (by omega) hearlier, depth_push, hs, List.length_append,
        ← List.drop_append_of_le_length (by omega), List.drop_drop]
      congr 1
      simp only [List.length_singleton]
      omega
    rw [List.append_cons] at hl
    rw [List.foldl_cons, ih hstep hl, depth_push, ← List.append_cons]

/-- Ordered snapshots that are put in place of the others: the newest ones that there is room
for. -/
theorem snapshots_replace (s : RollbackStack)
    (hl : l.Pairwise fun x y => x.played < y.played) :
    (s.replace l).snapshots = l.drop (l.length - s.depth) := by
  have hclear : s.clear.snapshots =
      ([] : List Snapshot).drop (([] : List Snapshot).length - s.clear.depth) := by
    simp [clear]
  exact foldl_push_eq hclear hl

theorem replace_tail (s t : RollbackStack)
    (hs : s.snapshots.Pairwise fun x y => x.played < y.played) (count : Nat) :
    (t.replace (s.tail count)).snapshots = s.tail (min count t.depth) := by
  rw [snapshots_replace t (hs.sublist (s.tail_sublist count))]
  unfold tail size
  rw [List.drop_drop, List.length_drop]
  congr 1
  omega

theorem exists_of_lastPosition? {p : Snapshot → Bool} {position : Nat}
    (h : s.lastPosition? p = some position) :
    ∃ x, s.get? position = some x ∧ p x = true := by
  obtain ⟨i, hi, rfl⟩ := Option.map_eq_some_iff.1 h
  obtain ⟨hlt, hp, -⟩ := List.findIdx?_eq_some_iff_getElem.1 hi
  rw [List.getElem_reverse] at hp
  exact ⟨_, List.getElem?_eq_getElem _, hp⟩

end RollbackStack

theorem StateManager.exists_of_findWhere {m : StateManager} {played position : Nat}
    {p : Snapshot → Bool} (h : m.findWhere played p = .ok position) :
    ∃ x, m.stack.get? position = some x ∧ p x = true := by
  unfold findWhere at h
  split at h
  · cases h
  · split at h
    · rename_i hlast
      cases h
      obtain ⟨x, hx, hp⟩ := RollbackStack.exists_of_lastPosition? hlast
      exact ⟨x, hx, (Bool.and_eq_true_iff.1 hp).2⟩
    · cases h

end Playhead

namespace Playhead.RollbackStack

/-- What the manager of a stack can do to it. -/
inductive Call where
  | push (x : Snapshot)
  | setDepth (depth : Nat)
  | truncateAfter (position : Nat)
  | clear
  | replace (l : List Snapshot)

variable {s : RollbackStack} {l : List Snapshot} {x : Snapshot}

def call (s : RollbackStack) : Call → RollbackStack
  | .push x => (s.push x).1
  | .setDepth depth => (s.setDepth depth).1
  | .truncateAfter position => s.truncateAfter position
  | .clear => s.clear
  | .replace l => s.replace l

/-- The snapshots that a call hands back. -/
def handedBack (s : RollbackStack) : Call → List Snapshot
  | .push x => (s.push x).2.toList
  | .setDepth depth => (s.setDepth depth).2
  | .truncateAfter _ | .clear | .replace _ => []

/-- A stack that was empty at first after some calls. -/
def after (depth : Nat) (calls : List Call) : RollbackStack :=
  calls.foldl call (.empty depth)

/-- What was handed back since the stack was last cleared or its contents were replaced, one more
call on. -/
def since (s : RollbackStack) (l : List Snapshot) : Call → List Snapshot
  | .clear | .replace _ => []
  | c => l ++ s.handedBack c

/-- The snapshots that were handed back since the stack was last cleared or its contents were
replaced, in the order of the calls; `l` before the first of them. -/
def dropped (s : RollbackStack) (l : List Snapshot) : List Call → List Snapshot
  | [] => l
  | c :: rest => (s.call c).dropped (s.since l c) rest

/-- The bound after some calls: the one that was set last. -/
def bound (depth : Nat) : List Call → Nat
  | [] => depth
  | .setDepth d :: rest => bound d rest
  | _ :: rest => bound depth rest

/-- A stack within its bound, whose snapshots were each captured later than those before it. -/
structure Bounded (s : RollbackStack) : Prop where
  size : s.size ≤ s.depth
  ordered : s.snapshots.Pairwise fun x y => x.played < y.played

/-- Of ordered snapshots, those that are superseded are all at the new end. -/
theorem before_eq_filter (hl : l.Pairwise fun x y => x.played < y.played) (played : Nat) :
    before played l = l.filter fun y => y.played < played := by
  induction l using List.reverseRecOn with
  | nil => rfl
  | append_singleton l y ih =>
    obtain ⟨hrest, -, hlast⟩ := List.pairwise_append.1 hl
    by_cases h : played ≤ y.played
    · have hbefore : before played (l ++ [y]) = before played l := by
        simp [before, h]
      rw [hbefore, ih hrest, List.filter_append]
      simp [Nat.not_lt_of_le h]
    · have hlt : y.played < played := Nat.lt_of_not_le h
      have hbefore : before played (l ++ [y]) = l ++ [y] := by
        simp [before, hlt]
      rw [hbefore, List.filter_eq_self.2 fun z hz => decide_eq_true ?_]
      rcases List.mem_append.1 hz with hz | hz
      · exact Nat.lt_trans (hlast z hz y (List.mem_singleton_self y)) hlt
      · rwa [List.mem_singleton.1 hz]

theorem evicted_push (s : RollbackStack) (x : Snapshot) :
    (s.push x).1.evicted = s.evicted + (s.push x).2.toList.length := by
  unfold push
  dsimp only
  split
  · rfl
  · split
    · split <;> rfl
    · rfl

theorem evicted_setDepth (s : RollbackStack) (depth : Nat) :
    (s.setDepth depth).1.evicted = s.evicted + (s.setDepth depth).2.length := by
  have hlength : (s.snapshots.take (s.size - depth)).length = s.size - depth :=
    List.length_take_of_le (Nat.sub_le _ _)
  exact congrArg (s.evicted + ·) hlength.symm

theorem depth_foldl_call (s : RollbackStack) (calls : List Call) :
    (calls.foldl call s).depth = bound s.depth calls := by
  induction calls generalizing s with
  | nil => rfl
  | cons c rest ih =>
    rw [List.foldl_cons, ih]
    cases c with
    | push x => exact congrArg (bound · rest) (s.depth_push x)
    | setDepth depth => rfl
    | truncateAfter position => rfl
    | clear => rfl
    | replace l => exact congrArg (bound · rest) (depth_foldl_push s.clear l)

namespace Bounded

theorem empty (depth : Nat) : (RollbackStack.empty depth).Bounded :=
  ⟨Nat.zero_le _, .nil⟩

theorem push (hs : s.Bounded) (x : Snapshot) : (s.push x).1.Bounded := by
  refine ⟨?_, ordered_push hs.ordered x⟩
  rw [depth_push]
  exact size_push hs.size

theorem setDepth (hs : s.Bounded) (depth : Nat) : (s.setDepth depth).1.Bounded := by
  refine ⟨?_, hs.ordered.sublist (List.drop_sublist _ _)⟩
  show (s.snapshots.drop (s.size - depth)).length ≤ depth
  rw [List.length_drop]
  show s.snapshots.length - (s.snapshots.length - depth) ≤ depth
  omega

theorem truncateAfter (hs : s.Bounded) (position : Nat) : (s.truncateAfter position).Bounded :=
  ⟨Nat.le_trans (List.length_take_le' _ _) hs.size, hs.ordered.sublist (List.take_sublist _ _)⟩

theorem clear (s : RollbackStack) : s.clear.Bounded :=
  ⟨Nat.zero_le _, .nil⟩

theorem replace (s : RollbackStack) (l : List Snapshot) : (s.replace l).Bounded := by
  have hpushed : (l.foldl (fun s x => (s.push x).1) s.clear).Bounded :=
    List.foldlRecOn l _ (clear s) fun _ h x _ => h.push x
  exact ⟨hpushed.size, hpushed.ordered⟩

theorem call (hs : s.Bounded) (c : Call) : (s.call c).Bounded := by
  cases c with
  | push x => exact hs.push x
  | setDepth depth => exact hs.setDepth depth
  | truncateAfter position => exact hs.truncateAfter position
  | clear => exact clear s
  | replace l => exact replace s l

end Bounded

theorem bounded_after (depth : Nat) (calls : List Call) : (after depth calls).Bounded :=
  List.foldlRecOn calls _ (.empty depth) fun _ h c _ => h.call c

theorem evicted_call (h : s.evicted = l.length) (c : Call) :
    (s.call c).evicted = (s.since l c).length := by
  cases c with
  | push x =>
    show (s.push x).1.evicted = (l ++ (s.push x).2.toList).length
    rw [evicted_push, h, List.length_append]
  | setDepth depth =>
    show (s.setDepth depth).1.evicted = (l ++ (s.setDepth depth).2).length
    rw [evicted_setDepth, h, List.length_append]
  | truncateAfter position =>
    show s.evicted = (l ++ []).length
    rw [h, List.append_nil]
  | clear => rfl
  | replace m => rfl

/-- The counter tells how many snapshots were handed back. -/
theorem evicted_foldl_call (h : s.evicted = l.length) (calls : List Call) :
    (calls.foldl call s).evicted = (s.dropped l calls).length := by
  induction calls generalizing s l with
  | nil => exact h
  | cons c rest ih => exact ih (evicted_call h c)

/-- A stack that was empty at first retains the newest of the snapshots that it was given and that
were not superseded: a push and a smaller bound drop the oldest ones and hand them back in order,
the counter tells how many were handed back, and the newest ones that are put in another stack's
place stay as far as that stack has room. -/
theorem newest_first (depth : Nat) (calls : List Call) :
    let s := after depth calls
    let room := bound depth calls
    (∀ x,
      let given := s.snapshots.filter (fun y => y.played < x.played) ++ [x]
      (s.push x).1.snapshots = given.rtake room ∧ (s.push x).2.toList = given.rdrop room) ∧
    (∀ d, (s.setDepth d).1.snapshots = s.snapshots.rtake d ∧
      (s.setDepth d).2 = s.snapshots.rdrop d) ∧
    s.evicted = ((RollbackStack.empty depth).dropped [] calls).length ∧
    ∀ (t : RollbackStack) (k : Nat),
      (t.replace (s.tail k)).snapshots = s.snapshots.rtake (min k t.depth) := by
  intro s room
  have hs : s.Bounded := bounded_after depth calls
  have hroom : s.depth = room := depth_foldl_call (.empty depth) calls
  refine ⟨fun x => ?_, fun d => ⟨rfl, rfl⟩, evicted_foldl_call rfl calls, fun t k => ?_⟩
  · rw [← before_eq_filter hs.ordered, ← hroom]
    exact push_eq_newest hs.size x
  · exact replace_tail s t hs.ordered k

end Playhead.RollbackStack
