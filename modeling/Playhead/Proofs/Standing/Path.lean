import Playhead.Proofs.Standing.Basic

/-!
What holds all along a way on which only certain commands are started.
-/

namespace Playhead

/-- The command that is reported as started, and where it stands. -/
def Event.executed? : Event → Option (Spot × String)
  | .commandExecuted spot name => some (spot, name)
  | _ => none

namespace Standing

/-- The command of a name is in flight. -/
def Current (s : Standing) (name : String) : Prop :=
  s.busy = true ∧ ∃ d i c, s.document = some d ∧ s.index = some i ∧ d.command? i = some c ∧
    c.name = name

/-- The names of the commands that notes report as started. -/
def Starts (l : List Note) (P : String → Prop) : Prop :=
  ∀ spot name, .event (.commandExecuted spot name) ∈ l → P name

/-- The commands that notes report as started. -/
def executed (l : List Note) : List (Spot × String) :=
  (l.filterMap Note.event?).filterMap Event.executed?

variable {w : Shelf} {s t : Standing} {l m : List Note} {P : String → Prop}

theorem executed_append (l m : List Note) : executed (l ++ m) = executed l ++ executed m := by
  unfold executed
  rw [List.filterMap_append, List.filterMap_append]

theorem starts_of_executed (h : executed l = []) : Starts l P := by
  intro spot name hn
  have hmem : (spot, name) ∈ executed l :=
    List.mem_filterMap.2 ⟨_, List.mem_filterMap.2 ⟨_, hn, rfl⟩, rfl⟩
  rw [h] at hmem
  cases hmem

/-- At most one note follows a command: that playback ended or halted, or the options. -/
theorem aftermath_cases (registry : Registry) (done : Completion) (d : Document) (i : Nat)
    (s : ServiceSet) :
    aftermath registry done d i s = [] ∨
      (∃ why, aftermath registry done d i s = [.event (.stopped why)] ∧
        (why = .command → done.flow = .stop)) ∨
      aftermath registry done d i s = [.event (.choicePresented s.pendingChoices)] := by
  unfold aftermath
  split
  · refine .inr (.inl ⟨_, rfl, fun h => ?_⟩)
    split at h
    · assumption
    · cases h
  · split
    · rename_i hflow
      exact .inr (.inl ⟨_, rfl, fun _ => hflow⟩)
    · split
      · exact .inr (.inr rfl)
      · exact .inl rfl

theorem afters_aftermath (registry : Registry) (done : Completion) (d : Document) (i : Nat)
    (s : ServiceSet) : (aftermath registry done d i s).filterMap Note.after? = [] := by
  rcases aftermath_cases registry done d i s with h | ⟨why, h, -⟩ | h <;> rw [h] <;> rfl

theorem executed_aftermath (registry : Registry) (done : Completion) (d : Document) (i : Nat)
    (s : ServiceSet) : executed (aftermath registry done d i s) = [] := by
  rcases aftermath_cases registry done d i s with h | ⟨why, h, -⟩ | h <;> rw [h] <;> rfl

/-- Only a completion whose flow halts is followed by a halt. -/
theorem not_halted_aftermath {done : Completion} (hf : done.flow ≠ .stop) (registry : Registry)
    (d : Document) (i : Nat) (s : ServiceSet) :
    .event (.stopped .command) ∉ aftermath registry done d i s := by
  rcases aftermath_cases registry done d i s with h | ⟨why, h, hwhy⟩ | h
  · rw [h]
    exact List.not_mem_nil
  · rw [h]
    intro hmem
    cases List.mem_singleton.1 hmem
    exact hf (hwhy rfl)
  · rw [h]
    simp

theorem executed_finish (w : Shelf) (s : Standing) (d : Document) (index : Nat)
    (done : Completion) (after : ServiceSet) :
    executed (s.finish w d index done after).1 = [] := by
  unfold finish
  dsimp only
  cases w.follow d index done.flow with
  | error e => rfl
  | ok r => exact executed_aftermath w.registry done r.1 r.2 after

theorem executed_pass (s : Standing) (d : Document) (i : Nat) : executed (s.pass d i).1 = [] := by
  unfold pass
  dsimp only
  split <;> rfl

theorem starts_append : Starts (l ++ m) P ↔ Starts l P ∧ Starts m P :=
  ⟨fun h => ⟨fun s n hn => h s n (List.mem_append_left _ hn),
      fun s n hn => h s n (List.mem_append_right _ hn)⟩,
    fun h s n hn => (List.mem_append.1 hn).elim (h.1 s n) (h.2 s n)⟩

theorem not_current (h : s.busy = false) (name : String) : ¬s.Current name :=
  fun hc => Bool.false_ne_true (h.symm.trans hc.1)

theorem busy_finish (w : Shelf) (s : Standing) (d : Document) (index : Nat) (done : Completion)
    (after : ServiceSet) : (s.finish w d index done after).2.busy = false := by
  unfold finish
  dsimp only
  cases w.follow d index done.flow <;> rfl

theorem services_finish (w : Shelf) (s : Standing) (d : Document) (index : Nat)
    (done : Completion) (after : ServiceSet) :
    (s.finish w d index done after).2.services = after := by
  unfold finish
  dsimp only
  cases w.follow d index done.flow <;> rfl

/-- A command that was in flight has just led to a standing inside a script. -/
def Lands (w : Shelf) (s : Standing) (l : List Note) (t : Standing) : Prop :=
  ∃ k u done d i, l = k ++ .after t.services :: aftermath w.registry done d i t.services ∧
    s.Roams w k u ∧ u.busy = true ∧ t.document = some d ∧ t.index = some i

theorem Lands.completed (h : s.Lands w l t) : .after t.services ∈ l := by
  obtain ⟨k, u, done, d, i, rfl, -⟩ := h
  exact List.mem_append_right k List.mem_cons_self

theorem Lands.after {r : Standing} (h : r.Lands w m t) (hs : s.Roams w l r) :
    s.Lands w (l ++ m) t := by
  obtain ⟨k, u, done, d, i, rfl, hk, hu⟩ := h
  exact ⟨l ++ k, u, done, d, i, (List.append_assoc _ _ _).symm, hs.trans hk, hu⟩

theorem lands_finish (hb : s.busy = true) (d : Document) (index : Nat) (done : Completion)
    (after : ServiceSet) (hi : (s.finish w d index done after).2.index ≠ none) :
    s.Lands w (s.finish w d index done after).1 (s.finish w d index done after).2 := by
  unfold finish at hi ⊢
  dsimp only at hi ⊢
  cases hf : w.follow d index done.flow with
  | error e =>
    rw [hf] at hi
    exact absurd rfl hi
  | ok r =>
    obtain ⟨next, i⟩ := r
    rw [hf] at hi
    refine ⟨[], s, done, next, i, rfl, .refl s, hb, rfl, ?_⟩
    show (if i < next.size then some i else none) = some i
    refine if_pos (Classical.not_not.1 fun hlt => hi ?_)
    exact if_neg hlt

/-- The command in flight after a step was started in the step. -/
theorem Moves.current (h : Moves w s l t) (hl : Starts l P) {name : String}
    (ht : t.Current name) : P name := by
  cases h with
  | start hd hi hc hb he hr =>
    obtain ⟨-, d', i', c', hd', hi', hc', rfl⟩ := ht
    have hd'' := hd'.symm.trans hd
    have hi'' := hi'.symm.trans hi
    cases hd''
    cases hi''
    rw [hc] at hc'
    cases hc'
    exact hl _ _ List.mem_cons_self
  | pass hd hi hc hb he =>
    exact (not_current (show (s.pass _ _).2.busy = false from hb) name ht).elim
  | complete hd hi hc hb hr => exact (not_current (busy_finish _ _ _ _ _ _) name ht).elim

theorem Goes.current (h : Goes w s l t) (hl : Starts l P) (hs : ∀ name, s.Current name → P name)
    {name : String} (ht : t.Current name) : P name := by
  cases h with
  | move h => exact h.current hl ht
  | work hd hi hc hb hn after => exact hs name ⟨hb, ht.2⟩
  | finish hd hi hc hb hn done after => exact (not_current (busy_finish _ _ _ _ _ _) name ht).elim

/-- Where only built-in commands are started, each step is known. -/
theorem Goes.next (h : Goes w s l t) (hs : ∀ name, s.Current name → name ∈ Builtin.names) :
    s.next w = some (l, t) := by
  cases h with
  | move h => exact next_of_moves h
  | work hd hi hc hb hn after => exact absurd (hs _ ⟨hb, _, _, _, hd, hi, hc, rfl⟩) hn
  | finish hd hi hc hb hn done after => exact absurd (hs _ ⟨hb, _, _, _, hd, hi, hc, rfl⟩) hn

theorem Roams.leads (h : s.Roams w l t) (hl : Starts l (· ∈ Builtin.names))
    (hs : ∀ name, s.Current name → name ∈ Builtin.names) :
    s.Leads w l t ∧ ∀ name, t.Current name → name ∈ Builtin.names := by
  induction h with
  | refl s => exact ⟨.refl s, hs⟩
  | step hg _ ih =>
    obtain ⟨hl₁, hl₂⟩ := starts_append.1 hl
    obtain ⟨hleads, ht⟩ := ih hl₂ fun name => hg.current hl₁ hs
    exact ⟨.step (hg.next hs) hleads, ht⟩

/-- Up to the first command of the host that is started, a way is known. -/
theorem Roams.strays (h : s.Roams w l t) (hl : ¬Starts l (· ∈ Builtin.names))
    (hs : ∀ name, s.Current name → name ∈ Builtin.names) :
    ∃ l₁ l₂ u spot name, l = l₁ ++ .event (.commandExecuted spot name) :: l₂ ∧
      name ∉ Builtin.names ∧ s.Leads w (l₁ ++ [.event (.commandExecuted spot name)]) u := by
  induction h with
  | refl s => exact absurd (fun _ _ h => absurd h List.not_mem_nil) hl
  | @step s t u l m hg _ ih =>
    have hnext := hg.next hs
    by_cases hl₁ : Starts l (· ∈ Builtin.names)
    · obtain ⟨l₁, l₂, v, spot, name, rfl, hn, hv⟩ := ih (fun hm => hl (starts_append.2 ⟨hl₁, hm⟩))
        fun name => hg.current hl₁ hs
      refine ⟨l ++ l₁, l₂, v, spot, name, (List.append_assoc _ _ _).symm, hn, ?_⟩
      rw [List.append_assoc]
      exact .step hnext hv
    · cases moves_of_next hnext with
      | @start d i c k hd hi hc hb he hr =>
        refine ⟨[], m, _, ⟨d.name, i⟩, c.name, rfl, fun hc => hl₁ ?_, .one hnext⟩
        intro spot name hn
        cases List.mem_singleton.1 hn
        exact hc
      | pass hd hi hc hb he => exact absurd (starts_of_executed (executed_pass _ _ _)) hl₁
      | complete hd hi hc hb hr =>
        exact absurd (starts_of_executed (executed_finish _ _ _ _ _ _)) hl₁

/-- A property of what was noted and where playback stands that every step keeps. -/
theorem Leads.keeps {I : List Note → Standing → Prop}
    (hstep : ∀ m s l t, Moves w s l t → (∀ name, s.Current name → P name) → I m s →
      I (m ++ l) t)
    (h : s.Leads w l t) (hl : Starts l P) (hs : ∀ name, s.Current name → P name) (hI : I m s) :
    I (m ++ l) t ∧ ∀ name, t.Current name → P name := by
  induction h generalizing m with
  | refl s =>
    rw [List.append_nil]
    exact ⟨hI, hs⟩
  | @step s t u l₁ l₂ hnext _ ih =>
    obtain ⟨hl₁, hl₂⟩ := starts_append.1 hl
    have hmove := moves_of_next hnext
    rw [← List.append_assoc]
    exact ih hl₂ (fun name => hmove.current hl₁) (hstep m s l₁ t hmove hs hI)

end Standing

end Playhead
