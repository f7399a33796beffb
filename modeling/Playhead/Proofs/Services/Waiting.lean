import Playhead.Command.Task

/-!
Waits for a time, step by step.

Main statement: a wait ends in the first step that is not cancelled and in which skipping is on or
the time has passed, counted over the steps that were not cancelled. Before that it tells exactly
how much time is left, and cancelled steps neither end it nor use up time.
-/

namespace Playhead

/-- What a task tells in one step after the other, as long as it is in flight. -/
def Task.tellAll : Task → ServiceSet → List Context → List (Progress Task × ServiceSet)
  | _, _, [] => []
  | t, s, ctx :: rest =>
    match t.step ctx s with
    | (.suspended u why, s) => (.suspended u why, s) :: u.tellAll s rest
    | (ended, s) => [(ended, s)]

/-- The time that a step takes off a wait, unless it skips. -/
def Context.used (ctx : Context) : Nanoseconds :=
  if ctx.cancelled then 0 else ctx.delta

namespace Wait

/-- The time that passes in the steps that are not cancelled. -/
def elapsed : List Context → Nanoseconds
  | [] => 0
  | ctx :: l => ctx.used + elapsed l

/-- Whether a wait for a time is over in a step: the step is not cancelled, and skipping is on or
the time has passed. -/
def Due (time : Nanoseconds) (l : List Context) (n : Nat) : Prop :=
  ∃ ctx, l[n]? = some ctx ∧ ctx.cancelled = false ∧
    (ctx.skipping = true ∨ time ≤ elapsed (l.take (n + 1)))

variable {time : Nanoseconds} {input : Bool} {ctx : Context} {l : List Context} {s : ServiceSet}

theorem elapsed_cons (ctx : Context) (l : List Context) :
    elapsed (ctx :: l) = ctx.used + elapsed l := rfl

theorem elapsed_singleton (ctx : Context) : elapsed [ctx] = ctx.used :=
  elapsed_cons ctx []

theorem due_zero : Due time (ctx :: l) 0 ↔
    ctx.cancelled = false ∧ (ctx.skipping = true ∨ time ≤ ctx.used) := by
  simp [Due, elapsed_singleton]

/-- Behind a step a wait goes on as a wait for what the step has left of the time. -/
theorem due_succ (n : Nat) :
    Due time (ctx :: l) (n + 1) ↔ Due (time - ctx.used) l n := by
  unfold Due
  simp only [List.getElem?_cons_succ, List.take_succ_cons, elapsed_cons, Nat.sub_le_iff_le_add']

theorem step_due (input : Bool) (s : ServiceSet) (h : Due time (ctx :: l) 0) :
    (Task.wait ⟨input, some time⟩).step ctx s = (.completed { waitForInput := input }, s) := by
  obtain ⟨hlive, hover⟩ := due_zero.1 h
  have hleft : (if ctx.skipping then 0 else time - ctx.delta) = 0 := by
    rcases hover with hskip | hpast
    · rw [if_pos hskip]
    · unfold Context.used at hpast
      rw [hlive] at hpast
      split
      · rfl
      · exact Nat.sub_eq_zero_of_le hpast
  simp [Task.step, Task.stepWait, hlive, hleft]

/-- A step in which a wait is not over leaves it as a wait for the rest of the time. -/
theorem step_open (input : Bool) (s : ServiceSet) (h : ¬Due time (ctx :: l) 0) :
    (Task.wait ⟨input, some time⟩).step ctx s =
      (.suspended (.wait ⟨input, some (time - ctx.used)⟩)
        (if ctx.cancelled then .yield else .time (time - ctx.used)), s) := by
  rw [due_zero] at h
  cases hc : ctx.cancelled with
  | true => simp [Task.step, Task.stepWait, Context.used, hc]
  | false =>
    have hused : ctx.used = ctx.delta := by simp [Context.used, hc]
    obtain ⟨hskip, hpast⟩ : ctx.skipping = false ∧ ¬time ≤ ctx.delta := by
      simpa [hc, hused] using h
    have hleft : time - ctx.delta ≠ 0 := Nat.sub_ne_zero_of_lt (Nat.lt_of_not_le hpast)
    simp [Task.step, Task.stepWait, hc, hskip, hused, hleft]

theorem used_le (h : ¬Due time (ctx :: l) 0) : ctx.used ≤ time := by
  rw [due_zero] at h
  cases hc : ctx.cancelled with
  | true => simp [Context.used, hc]
  | false => exact Nat.le_of_lt (Nat.lt_of_not_le fun hpast => h ⟨hc, .inr hpast⟩)

theorem tellAll_due (h : Due time (ctx :: l) 0) :
    (Task.wait ⟨input, some time⟩).tellAll s (ctx :: l) =
      [(.completed { waitForInput := input }, s)] := by
  rw [Task.tellAll, step_due input s h]

theorem tellAll_open (h : ¬Due time (ctx :: l) 0) :
    (Task.wait ⟨input, some time⟩).tellAll s (ctx :: l) =
      (.suspended (.wait ⟨input, some (time - ctx.used)⟩)
        (if ctx.cancelled then .yield else .time (time - ctx.used)), s) ::
      (Task.wait ⟨input, some (time - ctx.used)⟩).tellAll s l := by
  rw [Task.tellAll, step_open input s h]

/-- A wait is stepped until it is over. -/
theorem tellAll_eq_none_iff (input : Bool) (s : ServiceSet) (time : Nanoseconds)
    (l : List Context) (n : Nat) : ((Task.wait ⟨input, some time⟩).tellAll s l)[n]? = none ↔
      l.length ≤ n ∨ ∃ m < n, Due time l m := by
  induction l generalizing time n with
  | nil => simp [Task.tellAll]
  | cons ctx l ih =>
    by_cases hdue : Due time (ctx :: l) 0
    · rw [tellAll_due hdue]
      cases n with
      | zero => simp
      | succ n => exact iff_of_true rfl (.inr ⟨0, Nat.succ_pos n, hdue⟩)
    · rw [tellAll_open hdue]
      cases n with
      | zero => simp
      | succ n =>
        have hshift : (∃ m < n + 1, Due time (ctx :: l) m) ↔
            ∃ m < n, Due (time - ctx.used) l m := by
          constructor
          · rintro ⟨m, hm, h⟩
            cases m with
            | zero => exact absurd h hdue
            | succ m => exact ⟨m, Nat.lt_of_succ_lt_succ hm, (due_succ m).1 h⟩
          · rintro ⟨m, hm, h⟩
            exact ⟨m + 1, Nat.succ_lt_succ hm, (due_succ m).2 h⟩
        rw [List.getElem?_cons_succ, ih, hshift, List.length_cons, Nat.succ_le_succ_iff]

/-- What a wait tells in a step that is made. -/
inductive Tells (input : Bool) (time : Nanoseconds) (l : List Context) (n : Nat) :
    Progress Task → Prop where
  /-- A cancelled step leaves the time that the steps before it have left. -/
  | yields {ctx : Context} {left : Nanoseconds} (hn : l[n]? = some ctx)
      (hc : ctx.cancelled = true) (hleft : elapsed (l.take n) + left = time) :
      Tells input time l n (.suspended (.wait ⟨input, some left⟩) .yield)
  | ends (h : Due time l n) : Tells input time l n (.completed { waitForInput := input })
  /-- Any other step takes its time off and tells what is left. -/
  | waits {ctx : Context} {left : Nanoseconds} (hn : l[n]? = some ctx)
      (hc : ctx.cancelled = false) (hd : ¬Due time l n) (hpos : 0 < left)
      (hleft : elapsed (l.take (n + 1)) + left = time) :
      Tells input time l n (.suspended (.wait ⟨input, some left⟩) (.time left))

/-- What a wait for the rest of the time tells behind a step, a wait for all of it tells. -/
theorem Tells.behind {n : Nat} {progress : Progress Task} (hused : ctx.used ≤ time)
    (h : Tells input (time - ctx.used) l n progress) :
    Tells input time (ctx :: l) (n + 1) progress := by
  have hsum : ∀ {k : Nat} {left : Nanoseconds}, elapsed (l.take k) + left = time - ctx.used →
      elapsed ((ctx :: l).take (k + 1)) + left = time := by
    intro k left h
    rw [List.take_succ_cons, elapsed_cons, Nat.add_assoc, h, Nat.add_sub_cancel' hused]
  cases h with
  | yields hn hc hleft => exact .yields hn hc (hsum hleft)
  | ends hd => exact .ends ((due_succ n).2 hd)
  | waits hn hc hd hpos hleft =>
    exact .waits hn hc (fun h => hd ((due_succ n).1 h)) hpos (hsum hleft)

theorem tells_open (input : Bool) (h : ¬Due time (ctx :: l) 0) :
    Tells input time (ctx :: l) 0 (.suspended (.wait ⟨input, some (time - ctx.used)⟩)
      (if ctx.cancelled then .yield else .time (time - ctx.used))) := by
  have hused := used_le h
  cases hc : ctx.cancelled with
  | true =>
    have hnone : ctx.used = 0 := by simp [Context.used, hc]
    refine .yields rfl hc ?_
    rw [hnone]
    exact Nat.zero_add time
  | false =>
    have hlt : ctx.used < time := Nat.lt_of_not_le fun hpast => h (due_zero.2 ⟨hc, .inr hpast⟩)
    refine .waits rfl hc h (Nat.sub_pos_of_lt hlt) ?_
    rw [List.take_succ_cons, List.take_zero, elapsed_singleton]
    exact Nat.add_sub_cancel' hused

theorem tells_of_tellAll {n : Nat} {progress : Progress Task} {s' : ServiceSet}
    (h : ((Task.wait ⟨input, some time⟩).tellAll s l)[n]? = some (progress, s')) :
    s' = s ∧ Tells input time l n progress := by
  induction l generalizing time n with
  | nil => simp [Task.tellAll] at h
  | cons ctx l ih =>
    by_cases hdue : Due time (ctx :: l) 0
    · rw [tellAll_due hdue] at h
      obtain ⟨rfl, h⟩ : n = 0 ∧ _ := by simpa [List.getElem?_singleton] using h
      obtain ⟨rfl, rfl⟩ := h
      exact ⟨rfl, .ends hdue⟩
    · rw [tellAll_open hdue] at h
      cases n with
      | zero =>
        cases h
        exact ⟨rfl, tells_open input hdue⟩
      | succ n =>
        obtain ⟨hs, htells⟩ := ih h
        exact ⟨hs, htells.behind (used_le hdue)⟩

/-- A wait ends in exactly the first step that is not cancelled and in which skipping is on or the
time has passed. No step is made after it. What is told before it is the time that is left, which
cancelled steps do not use up. -/
theorem wait_exact (input : Bool) (time : Nanoseconds) (s : ServiceSet) (l : List Context) :
    (∀ n, (∃ done s', ((Task.wait ⟨input, some time⟩).tellAll s l)[n]? =
        some (.completed done, s')) ↔ Due time l n ∧ ∀ m < n, ¬Due time l m) ∧
      (∀ n, ((Task.wait ⟨input, some time⟩).tellAll s l)[n]? = none ↔
        l.length ≤ n ∨ ∃ m < n, Due time l m) ∧
      ∀ n progress s', ((Task.wait ⟨input, some time⟩).tellAll s l)[n]? = some (progress, s') →
        s' = s ∧ Tells input time l n progress := by
  have hnone := tellAll_eq_none_iff input s time l
  refine ⟨fun n => ⟨?_, ?_⟩, hnone, fun n progress s' => tells_of_tellAll⟩
  · rintro ⟨done, s', h⟩
    refine ⟨?_, fun m hm hdue => ?_⟩
    · cases (tells_of_tellAll h).2 with
      | ends hdue => exact hdue
    · cases h.symm.trans ((hnone n).2 (.inr ⟨m, hm, hdue⟩))
  · rintro ⟨hdue, hfirst⟩
    obtain ⟨ctx, hctx, hlive, -⟩ := id hdue
    have hlt : n < l.length := (List.getElem?_eq_some_iff.1 hctx).1
    have hmade : ((Task.wait ⟨input, some time⟩).tellAll s l)[n]? ≠ none := by
      rw [Ne, hnone]
      rintro (hle | ⟨m, hm, h⟩)
      · exact Nat.not_le_of_lt hlt hle
      · exact hfirst m hm h
    obtain ⟨⟨progress, s'⟩, h⟩ := Option.ne_none_iff_exists'.1 hmade
    cases (tells_of_tellAll h).2 with
    | yields hn hc hleft =>
      cases hctx.symm.trans hn
      cases hlive.symm.trans hc
    | ends => exact ⟨_, _, h⟩
    | waits hn hc hd hpos hleft => exact absurd hdue hd

end Wait

end Playhead
