import Playhead.Proofs.Standing.Tick

/-!
A tick completes a command, ends the story or uses up time of the wait in flight.
-/

namespace Playhead

/-- The time that a task still waits. -/
def Task.left : Task → Nanoseconds
  | .wait w => w.time.getD 0
  | _ => 0

/-- The time that the command in flight still waits. -/
def ActiveCommand.left (a : ActiveCommand) : Nanoseconds :=
  a.task.left

namespace Task

variable {t rest : Task} {ctx : Context} {s s' : ServiceSet} {why : Suspension}

theorem left_stepWait {w : Wait} (hc : ctx.cancelled = false)
    (h : stepWait ctx w = .suspended rest why) :
    0 < rest.left ∧ rest.left ≤ (Task.wait w).left - ctx.delta := by
  unfold stepWait at h
  simp only [hc, Bool.false_eq_true, if_false] at h
  cases htime : w.time with
  | none =>
    rw [htime] at h
    cases h
  | some time =>
    rw [htime] at h
    dsimp only at h
    obtain ⟨still, hstill⟩ : ∃ still, still = if ctx.skipping = true then 0 else
      time - ctx.delta := ⟨_, rfl⟩
    have hle : still ≤ time - ctx.delta := by
      rw [hstill]
      split
      · exact Nat.zero_le _
      · exact Nat.le_refl _
    rw [← hstill] at h
    by_cases hzero : still = 0
    · rw [if_pos hzero] at h
      cases h
    · rw [if_neg hzero] at h
      cases h
      refine ⟨Nat.pos_of_ne_zero hzero, ?_⟩
      show still ≤ w.time.getD 0 - ctx.delta
      rw [htime]
      exact hle

/-- Only a wait outlasts its step, and it grows shorter by the time of the step. -/
theorem left_of_suspended (ht : ¬t.IsHost) (hc : ctx.cancelled = false)
    (h : t.step ctx s = (.suspended rest why, s')) :
    0 < rest.left ∧ rest.left ≤ t.left - ctx.delta := by
  by_cases hw : ∃ w, t = .wait w
  · obtain ⟨w, rfl⟩ := hw
    exact left_stepWait hc (congrArg Prod.fst h)
  · have hlast := isLast_step ht (fun w hw' => hw ⟨w, hw'⟩) ctx s
    rw [h] at hlast
    exact hlast.elim

end Task

namespace Standing

variable {w : Shelf} {s t : Standing} {l : List Note}

/-- The services change only where a command completes, and only there a command can halt. -/
theorem Leads.silent (h : s.Leads w l t) (hl : l.filterMap Note.after? = []) :
    t.services = s.services ∧ .event (.stopped .command) ∉ l := by
  induction h with
  | refl s => exact ⟨rfl, List.not_mem_nil⟩
  | @step s t u l m hs _ ih =>
    rw [List.filterMap_append, List.append_eq_nil_iff] at hl
    obtain ⟨hservices, hm⟩ := ih hl.2
    suffices hstep : t.services = s.services ∧ .event (.stopped .command) ∉ l from
      ⟨hservices.trans hstep.1, fun h => (List.mem_append.1 h).elim hstep.2 hm⟩
    cases moves_of_next hs with
    | start hd hi hc hb he hr => exact ⟨rfl, by simp [start]⟩
    | pass hd hi hc hb he =>
      refine ⟨rfl, ?_⟩
      unfold pass
      dsimp only
      split <;> simp
    | complete hd hi hc hb hr =>
      rw [Playback.afters_complete] at hl
      exact absurd hl.1 (List.cons_ne_nil _ _)

theorem next_of_index (h : s.index = none) : s.next w = none := by
  unfold next
  rw [h]
  split
  · rename_i hi
    cases hi
  · rfl

/-- A way that goes on from a standing takes its next step first. -/
theorem Leads.cases_next (h : s.Leads w l t) {k : List Note} {u : Standing}
    (hu : s.next w = some (k, u)) : l = [] ∧ t = s ∨ ∃ m, l = k ++ m ∧ u.Leads w m t := by
  cases h with
  | refl => exact .inl ⟨rfl, rfl⟩
  | step hnext tail =>
    cases hnext.symm.trans hu
    exact .inr ⟨_, rfl, tail⟩

/-- Where every standing that has a next step is passed in the end, every standing ahead is. What is
kept track of is the way to a standing and the standing, as a way can come to one standing twice. -/
theorem Leads.outrun {P : List Note → Standing → Prop}
    (hP : ∀ k s l t, P k s → s.next w = some (l, t) → ∃ m u, t.Leads w m u ∧ P (k ++ (l ++ m)) u)
    (h : s.Leads w l t) {k m : List Note} {u : Standing} (hu : s.Leads w m u)
    (hPu : P (k ++ m) u) : ∃ r v, t.Leads w r v ∧ P (k ++ (l ++ r)) v := by
  induction h generalizing k m u with
  | refl s => exact ⟨m, u, hu, hPu⟩
  | @step s t v l l' hnext _ ih =>
    suffices hpast : ∃ m u, t.Leads w m u ∧ P (k ++ (l ++ m)) u by
      obtain ⟨m, u, hu, hPu⟩ := hpast
      rw [← List.append_assoc] at hPu
      obtain ⟨r, q, hr, hq⟩ := ih hu hPu
      rw [List.append_assoc] at hq
      exact ⟨r, q, hr, by rw [List.append_assoc]; exact hq⟩
    rcases hu.cases_next hnext with ⟨rfl, rfl⟩ | ⟨m', rfl, hu'⟩
    · rw [List.append_nil] at hPu
      exact hP k _ l t hPu hnext
    · exact ⟨m', u, hu', hPu⟩

end Standing

namespace Playback

variable {env : Env} {p q : Playback} {a : ActiveCommand}

/-- Nothing is left to play. -/
def Over (p : Playback) : Prop :=
  p.player.document = none ∨ p.cursor.index = none

theorem next_of_over {w : Shelf} (h : p.Over) : p.standing.next w = none := by
  unfold Standing.next
  split
  · rename_i hd hi
    rcases h with h | h
    · exact absurd (hd.symm.trans h) (Option.some_ne_none _)
    · exact absurd (hi.symm.trans h) (Option.some_ne_none _)
  · rfl

/-- A command that outlasts its step waits, and less long than before. -/
theorem left_stepActive (hp : Sound env p) (ha : p.player.active = some a)
    (delta : Nanoseconds) (h : (p.stepActive env a delta).2 = .ok false) :
    ∃ b, (p.stepActive env a delta).1.player.active = some b ∧ 0 < b.left ∧
      b.left ≤ a.left - delta := by
  obtain ⟨d, c, k, t, hf, hm, hbegun, hunder⟩ := hp.flight ha
  have hhost : ¬a.task.IsHost := by
    rcases hunder with ht | ⟨v, w, -, ht, -⟩
    · rw [ht]
      exact (Builtin.starts_of_begin hm hbegun).not_isHost
    · rw [ht]
      exact id
  have hfinished : ∀ r : Playback × Except JumpError Unit, (finished r).2 ≠ .ok false := by
    rintro ⟨q, u | e⟩ <;> exact nofun
  rw [stepActive_eq hf.document hf.command, hp.live] at h ⊢
  cases hr : a.task.step ⟨c, ⟨d.name, a.index⟩, delta, p.cursor.skipping, false, false⟩
      p.services with
  | mk r s =>
    rw [hr] at h
    cases r with
    | suspended rest why => exact ⟨_, rfl, Task.left_of_suspended hhost rfl hr⟩
    | _ => exact absurd h (hfinished _)

theorem begin_progress (env : Env) (p : Playback) (d : Document) (i : Nat) (c : Command)
    (k : Handler) : (p.begin env d i c k).2 ≠ .ok .idle ∧
      ((p.begin env d i c k).2 = .ok .started →
        ∃ a, (p.begin env d i c k).1.player.active = some a) := by
  rw [begin_eq]
  cases k.begin c with
  | ok t => exact ⟨nofun, fun _ => ⟨_, rfl⟩⟩
  | error f => exact ⟨(snd_passed_ne _).1, fun h => absurd h (snd_passed_ne _).2⟩

theorem beginNext_progress (hp : Grounded env p) (ha : p.player.active = none) :
    ((p.beginNext env).2 = .ok .idle → (p.beginNext env).1.Over) ∧
      ((p.beginNext env).2 = .ok .started → ∃ a, (p.beginNext env).1.player.active = some a) := by
  refine beginNext_induct (M := fun _ r => (r.2 = .ok .idle → r.1.Over) ∧
      (r.2 = .ok .started → ∃ a, r.1.player.active = some a))
    (fun {q d i c k} _ => ?_) (fun _ hr => hr) (fun _ _ _ hindex => ⟨fun _ => .inr hindex, nofun⟩) hp ha
    fun hover => ⟨fun _ => hover, nofun⟩
  have hb := begin_progress env q.entering d i c k
  exact ⟨fun hidle => absurd hidle hb.1, hb.2⟩

/-- What comes of the time that passes: a command completes, nothing is left to play, or a wait is
in flight that has become shorter if it was in flight before. -/
def Advances (p q : Playback) (g : List ServiceSet) (delta : Nanoseconds) : Prop :=
  g ≠ [] ∨ q.Over ∨ ∃ b, q.player.active = some b ∧ 0 < b.left ∧
    ∀ a, p.player.active = some a → b.left ≤ a.left - delta

/-- Stepping the command in flight advances, whatever is run after it. -/
theorem step_advances (hq : Sound env q) (ha : q.player.active = some a) (n : Nat)
    (delta : Nanoseconds) (g : List ServiceSet)
    (hp : ∀ b, p.player.active = some b → b = a) :
    Advances p
      (match q.stepActive env a delta with
        | (p, .error e) => (p, (.error e : Except JumpError Unit))
        | (p, .ok false) => (p, .ok ())
        | (p, .ok true) => run env n 0 p).1
      (g ++ (steppedAfters (q.stepActive env a delta) ++
        match q.stepActive env a delta with
        | (p, .ok true) => runAfters env n 0 p
        | _ => [])) delta := by
  have hleft := left_stepActive hq ha delta
  cases hr : q.stepActive env a delta with
  | mk r result =>
    rw [hr] at hleft
    rcases result with e | done
    · exact .inl (by simp [steppedAfters])
    · cases done with
      | true => exact .inl (by simp [steppedAfters])
      | false =>
        obtain ⟨b, hb, hpos, hle⟩ := hleft rfl
        refine .inr (.inr ⟨b, hb, hpos, fun c hc => ?_⟩)
        rw [hp c hc]
        exact hle

/-- Time that passes while playback runs and does not wait for input. -/
theorem tick_advances (hp : Sound env p) (hrun : p.player.isRunning = true)
    (hw : p.cursor.waiting = false) (hb : 0 < env.config.maxCommands) (delta : Nanoseconds) :
    Strays env p (p.tick env delta).1 (p.tickAfters env delta) ∨
      Advances p (p.tick env delta).1 (p.tickAfters env delta) delta := by
  unfold tick tickAfters
  simp only [hrun, hp.live, hw, Bool.not_true, Bool.false_eq_true, if_false]
  unfold advance advanceAfters
  cases ha : p.player.active with
  | some a =>
    dsimp only
    rw [hp.not_isStray ha]
    exact .inr (step_advances hp ha _ delta [] fun b hb => Option.some.inj (hb.symm.trans ha))
  | none =>
    obtain ⟨n, hn⟩ := Nat.exists_eq_add_one.2 hb
    dsimp only
    rw [hn]
    unfold run runAfters
    simp only [hrun, hw, Bool.not_true, Bool.or_self, Bool.false_eq_true, if_false]
    have htracked := (beginNext_reaches hp.toGrounded ha).tracked hp
    have hprogress := beginNext_progress hp.toGrounded ha
    cases hr : p.beginNext env with
    | mk q result =>
      rw [hr] at htracked hprogress
      rcases result with e | outcome
      · exact .inr (.inl (by simp [begunAfters]))
      · cases outcome with
        | completed => exact .inr (.inl (by simp [begunAfters]))
        | idle => exact .inr (.inr (.inl (hprogress.1 rfl)))
        | started =>
          obtain ⟨a, hqa⟩ := hprogress.2 rfl
          dsimp only
          rw [hqa]
          dsimp only
          rcases htracked with ⟨l, -, hq, -⟩ | hs
          · refine .inr (step_advances hq hqa n delta _ fun b hb => ?_)
            rw [ha] at hb
            cases hb
          · exact .inl (hs.grow (.step_run env n hqa delta) _)

end Playback

end Playhead
