import Mathlib.Logic.Function.Iterate
import Playhead.Proofs.Motion.Moves
import Playhead.Proofs.Motion.Pace

/-!
What a run forward comes to.

A run forward that says it has come to its target has. Playback may leave the script on the way and
come back to it within one tick. What holds all the way is that the run has ended at its target
only if the command there is the next one to start, and then no step leads away from it.

A run forward and ordinary playing come to a command in the same state. Both go along the sequence
of states that does not depend on how playback is played. The run forward stops at the first state
of it at which the command is the next one to start, and ordinary playing comes to the same state
first.
-/

namespace Playhead.Playback

variable {env : Env} {p q : Playback} {d : Document} {i : Nat}

section

variable {spot : Spot}

/-- A run forward to a spot, which has come there only if the command there is the next one to
start. -/
structure Aimed (env : Env) (spot : Spot) (p : Playback) : Prop extends Steps env p where
  target : ∀ f, p.player.fastForward = some f → f.script = spot.script ∧ f.target = spot.index ∧
    (f.reached = true → p.faces spot = true)

/-- A move that keeps the run forward, if there still is one, and does not lead away from the target
once it is reached. -/
theorem Aimed.moved (hp : Aimed env spot p) (hq : Steps env q)
    (hf : q.player.fastForward = p.player.fastForward ∨ q.player.fastForward = none)
    (hfaces : ∀ f, p.player.fastForward = some f → p.faces spot = true → q.faces spot = true) :
    Aimed env spot q := by
  refine ⟨hq, fun f hqf => ?_⟩
  rcases hf with hf | hf
  · have hpf := hf.symm.trans hqf
    obtain ⟨hscript, htarget, hreached⟩ := hp.target f hpf
    exact ⟨hscript, htarget, fun hr => hfaces f hpf (hreached hr)⟩
  · cases hf.symm.trans hqf

theorem faces_interrupt (h : p.faces spot = true) : p.interrupt.faces spot = true := by
  obtain ⟨hidle, hspot⟩ := Bool.and_eq_true_iff.1 h
  have ha := Option.isNone_iff_eq_none.1 hidle
  unfold interrupt renewScope
  rw [cancelActive_of_idle ha]
  exact Bool.and_eq_true_iff.2 ⟨hidle, hspot⟩

/-- A run forward ends where the command at its target is the next one to start. -/
theorem Aimed.reach_of_faces (hp : Aimed env spot p) {f : FastForward}
    (hf : p.player.fastForward = some f) (h : p.faces spot = true) : p.reach.2 = true := by
  obtain ⟨hidle, hspot⟩ := Bool.and_eq_true_iff.1 h
  have hspot : p.cursor.spot? = some spot := of_decide_eq_true hspot
  unfold Cursor.spot? at hspot
  obtain ⟨i, hi, rfl⟩ := Option.map_eq_some_iff.1 hspot
  obtain ⟨d, hd⟩ : ∃ d, p.player.document = some d := by
    refine Option.ne_none_iff_exists'.1 fun hnone => ?_
    cases (hp.placed.idle hnone).symm.trans hi
  obtain ⟨hscript, htarget, -⟩ := hp.target f hf
  have hname : p.cursor.script = d.name := (hp.placed.script d hd).1
  have hend : (f.script = d.name && f.target ≤ i) = true := by
    simp [hscript, htarget, hname]
  rw [reach_eq hd hi]
  unfold checkForward
  rw [hf]
  dsimp only
  rw [if_pos hend]

theorem Aimed.step (hp : Aimed env spot p) (h : Step env p q) : Aimed env spot q := by
  have hq : Steps env q := hp.toSteps.turns (w := .none) (h.turns hp.registry hp.read)
  cases h with
  | interrupt hc => exact hp.moved hq (.inl p.fastForward_interrupt) fun _ _ => faces_interrupt
  | leave delta =>
    have hback := (Stays.leaveWait env p delta).backdrop
    refine hp.moved hq (.inl (congrArg Backdrop.fastForward hback)) fun _ _ hfaces => ?_
    exact (faces_congr (p.bare_leaveWait env delta) spot).trans hfaces
  | goOn =>
    have hback := (Stays.continueInput p).backdrop
    refine hp.moved hq (.inl (congrArg Backdrop.fastForward hback)) fun _ _ hfaces => ?_
    exact (faces_congr p.bare_continueInput spot).trans hfaces
  | reach hb ha =>
    have hfaces : p.reach.1.faces spot = p.faces spot := by
      refine faces_congr ?_ spot
      unfold Playback.reach
      split
      · exact p.bare_checkForward _ _
      · rfl
    rcases forward_reach hp.toSteps ha with hsame | ⟨g, f, hg, hf, hscript, htarget, hreached⟩
    · exact hp.moved hq (.inl hsame) fun _ _ => hfaces.trans
    · refine ⟨hq, fun f' hf' => ?_⟩
      cases hf.symm.trans hf'
      obtain ⟨hgs, hgt, hgr⟩ := hp.target g hg
      refine ⟨hscript.trans hgs, htarget.trans hgt, fun hr => hfaces.trans ?_⟩
      rcases hreached hr with hr | hr
      · exact hgr hr
      · rw [hgs, hgt] at hr
        exact hr
  | arrive hrun ha hreach =>
    refine hp.moved hq ((arrive_reined env ha).forward.imp_right And.left) fun f hf hfaces => ?_
    cases (hp.reach_of_faces hf hfaces).symm.trans hreach
  | @work a hrun ha delta =>
    refine hp.moved hq ((stepActive_reined env p a delta).forward.imp_right And.left)
      fun f hf hfaces => ?_
    have hidle := (Bool.and_eq_true_iff.1 hfaces).1
    rw [ha] at hidle
    cases hidle

/-- A run forward that says it has come to its target is at the end of it. -/
theorem reached_of_forward {startedAt left : Nat}
    (h : forward env startedAt left p = (q, .ok true)) :
    ∃ f, q.player.fastForward = some f ∧ f.reached = true := by
  induction left generalizing p with
  | zero =>
    unfold forward at h
    split at h
    · cases h
    · rename_i f hf
      split at h
      · rename_i hr
        cases h
        exact ⟨f, hf, hr⟩
      · split at h <;> cases h
  | succ left ih =>
    unfold forward at h
    split at h
    · cases h
    · rename_i f hf
      split at h
      · rename_i hr
        cases h
        exact ⟨f, hf, hr⟩
      · split at h
        · cases h
        · dsimp only at h
          generalize p.tick env 0 = r at h
          obtain ⟨u, e | _⟩ := r
          · cases h
          · exact ih h

/-- What every step keeps, a run forward keeps. -/
theorem forward_keeps {I : Playback → Prop} (hstep : ∀ p q, Step env p q → I p → I q)
    (hs : Steps env p) (hp : I p) {startedAt left : Nat} {r : Except JumpError Bool}
    (h : forward env startedAt left p = (q, r)) : I q := by
  obtain ⟨l, hpath⟩ := forward_path startedAt left hs
  rw [h] at hpath
  exact hpath.keeps hstep hp

/-- Playing forward that comes to its target has been there before or has run there. -/
theorem fastForward_eq_true (hd : p.player.document = some d) {target : Nat}
    (h : p.fastForward env target = (q, .ok true)) :
    p.cursor.index = some target ∧ q = p ∨
      ∃ v, forward env p.cursor.played (env.config.fastForwardLimit + 1)
        (p.hasten ⟨d.name, target, false, false⟩) = (v, .ok true) ∧
          q = v.relax p.cursor.skipping := by
  unfold fastForward at h
  split at h
  · rename_i d' start hd' hi
    cases hd.symm.trans hd'
    split at h
    · obtain ⟨rfl, htarget⟩ := Prod.mk.inj h
      obtain rfl : target = start := of_decide_eq_true (Except.ok.inj htarget)
      exact .inl ⟨hi, rfl⟩
    · split at h
      · cases (Prod.mk.inj h).2
      · dsimp only at h
        rw [← hasten] at h
        generalize hforward : forward env p.cursor.played (env.config.fastForwardLimit + 1)
          (p.hasten ⟨d.name, target, false, false⟩) = r at h
        obtain ⟨v, result⟩ := r
        obtain ⟨hq, rfl⟩ := Prod.mk.inj h
        exact .inr ⟨v, rfl, hq.symm⟩
  · cases (Prod.mk.inj h).2

theorem Aimed.hasten (hp : Steps env p) (spot : Spot) :
    Aimed env spot (p.hasten ⟨spot.script, spot.index, false, false⟩) := by
  refine ⟨hp.turns (w := .none) (.of_eq rfl), fun f hf => ?_⟩
  cases hf
  exact ⟨rfl, rfl, nofun⟩

/-- The command at the target of a run forward that says it has come there is the next one to
start. -/
theorem Aimed.faces_of_forward {startedAt left : Nat} (hp : Aimed env spot p)
    (h : forward env startedAt left p = (q, .ok true)) : q.faces spot = true := by
  obtain ⟨f, hf, hr⟩ := reached_of_forward h
  have hq : Aimed env spot q := forward_keeps (fun _ _ h hp => hp.step h) hp.toSteps hp h
  exact (hq.target f hf).2.2 hr

/-- Playing forward that comes to its target leaves the cursor there. -/
theorem spot_of_fastForward (hp : Steps env p) (hd : p.player.document = some d) {target : Nat}
    (h : p.fastForward env target = (q, .ok true)) :
    q.cursor.spot? = some ⟨d.name, target⟩ := by
  rcases fastForward_eq_true hd h with ⟨hi, rfl⟩ | ⟨v, hv, rfl⟩
  · unfold Cursor.spot?
    rw [hi, ← (hp.placed.script d hd).1]
    rfl
  · have hfaces := (Aimed.hasten hp ⟨d.name, target⟩).faces_of_forward hv
    exact of_decide_eq_true (Bool.and_eq_true_iff.1 hfaces).2

end

/-- Playback at a state of the sequence before which none has the command at a spot next. -/
def Nears (env : Env) (spot : Spot) (b : Playback) (m : Nat) (p : Playback) : Prop :=
  p.bare = (next env)^[m] b ∧ ∀ j < m, (((next env)^[j] b).faces spot = false ∧
    ((next env)^[j] b).player.isRunning = true)

theorem Nears.next {spot : Spot} {b : Playback} {m : Nat} (h : Nears env spot b m p)
    (hnot : p.faces spot = false) (hrun : p.player.isRunning = true)
    (hq : q.bare = p.bare.next env) : Nears env spot b (m + 1) q := by
  obtain ⟨hbare, hbefore⟩ := h
  refine ⟨?_, fun j hj => ?_⟩
  · rw [hq, hbare, Function.iterate_succ_apply']
  · rcases Nat.lt_succ_iff_lt_or_eq.1 hj with hj | rfl
    · exact hbefore j hj
    · rw [← hbare, faces_bare]
      exact ⟨hnot, hrun⟩

/-- A run forward to a spot along the sequence. -/
structure Bound (env : Env) (spot : Spot) (b p : Playback) : Prop
    extends Paced env p, Aimed env spot p where
  along : ∃ m, Nears env spot b m p
  budget : ∀ f, p.player.fastForward = some f → f.reached = true → 0 < env.config.maxCommands
  ended : p.player.fastForward = none → p.cursor.index = none

/-- A run forward that goes on has not come to its target. -/
theorem Bound.not_faces {spot : Spot} {b : Playback} (hp : Bound env spot b p)
    (h : Proceeds env p q) : p.faces spot = false := by
  rw [Bool.eq_false_iff]
  intro hfaces
  have ha := Option.isNone_iff_eq_none.1 (Bool.and_eq_true_iff.1 hfaces).1
  obtain ⟨-, -, i, hi⟩ := isRunning_iff.1 h.running
  cases hf : p.player.fastForward with
  | none => cases hi.symm.trans (hp.ended hf)
  | some f => cases (h.going ha).symm.trans (hp.reach_of_faces hf hfaces)

theorem Bound.step {spot : Spot} {b : Playback} (hp : Bound env spot b p) (h : Step env p q) :
    Bound env spot b q := by
  obtain ⟨m, halong⟩ := hp.along
  refine { hp.toPaced.step h, hp.toAimed.step h with along := ?_, budget := ?_, ended := ?_ }
  all_goals rcases h.lingers_or_proceeds hp.toPaced with ⟨hq, hforward⟩ | hq
  · exact ⟨m, hq.trans halong.1, halong.2⟩
  · exact ⟨m + 1, halong.next (hp.not_faces hq) hq.running hq.next⟩
  · intro f hf hr
    rcases hforward with hsame | ⟨g, f', hg, hf', -, -, hreached⟩
    · exact hp.budget f (hsame ▸ hf) hr
    · cases hf'.symm.trans hf
      exact (hreached hr).elim (hp.budget g hg) And.right
  · intro f hf hr
    rcases hq.forward with hsame | ⟨hnone, -⟩
    · exact hp.budget f (hsame ▸ hf) hr
    · cases hnone.symm.trans hf
  · intro hnone
    have hindex : q.bare.cursor.index = p.bare.cursor.index := by rw [hq]
    refine hindex.trans (hp.ended ?_)
    rcases hforward with hsame | ⟨g, f, -, hf, -⟩
    · exact hsame ▸ hnone
    · cases hf.symm.trans hnone
  · intro hnone
    rcases hq.forward with hsame | ⟨-, hindex⟩
    · obtain ⟨-, -, i, hi⟩ := isRunning_iff.1 hq.running
      cases hi.symm.trans (hp.ended (hsame ▸ hnone))
    · exact hindex

/-- A run forward that has been cancelled is interrupted before it comes to its target. -/
theorem forward_of_cancelled (env : Env) (hc : p.scopes.isCancelled p.player.scope = true)
    {f : FastForward} (hf : p.player.fastForward = some f) (hr : f.reached = false)
    (startedAt left : Nat) :
    (forward env startedAt left p).2 ≠ .ok true := by
  have hinterrupt : p.interrupt.player.fastForward = some f ∧
      p.interrupt.player.isRunning = false := by
    refine ⟨p.fastForward_interrupt.trans hf, ?_⟩
    unfold Player.isRunning
    rw [show p.interrupt.player.halted = true from rfl, Bool.not_true, Bool.and_false,
      Bool.false_and]
  cases left with
  | zero =>
    unfold forward
    simp only [hf, hr, Bool.false_eq_true, if_false]
    split <;> exact fun h => by cases h
  | succ left =>
    unfold forward
    simp only [hf, hr, Bool.false_eq_true, if_false]
    split
    · exact fun h => by cases h
    · rename_i hgo
      have hrun : p.player.isRunning = true := by
        cases h : p.player.isRunning with
        | true => rfl
        | false => rw [h] at hgo; simp at hgo
      have htick : p.tick env 0 = (p.interrupt, .ok ()) := by
        unfold tick
        simp only [hrun, hc, Bool.not_true, Bool.false_eq_true, if_false, if_true]
      rw [htick]
      dsimp only
      cases left <;>
      · unfold forward
        simp only [hinterrupt.1, hr, hinterrupt.2, Bool.not_false, Bool.or_true, Bool.true_or,
          Bool.false_eq_true, if_false, if_true]
        exact fun h => by cases h

/-- A run forward that comes to its target stops at the first state of the sequence at which the
command there is the next one to start. -/
theorem fastForward_along (hp : Steps env p) (hs : env.source.registry.Starts Task.Steady)
    (ha : ∀ a, p.player.active = some a → a.task.Steady) (hd : p.player.document = some d)
    (hi : p.cursor.index = some i) {target : Nat} (hlt : i < target)
    (h : p.fastForward env target = (q, .ok true)) :
    Paced env p ∧ 0 < env.config.maxCommands ∧ q.faces ⟨d.name, target⟩ = true ∧
      ∃ m, Nears env ⟨d.name, target⟩ p.bare m q := by
  rcases fastForward_eq_true hd h with ⟨htarget, -⟩ | ⟨v, hv, rfl⟩
  · cases hi.symm.trans htarget
    exact absurd hlt (Nat.lt_irrefl i)
  obtain ⟨u, hu⟩ : ∃ u, u = p.hasten ⟨d.name, target, false, false⟩ := ⟨_, rfl⟩
  have haimed : Aimed env ⟨d.name, target⟩ u := hu ▸ .hasten hp ⟨d.name, target⟩
  rw [← hu] at hv
  have hlive : p.scopes.isCancelled p.player.scope = false := by
    rw [Bool.eq_false_iff]
    intro hc
    have hne := forward_of_cancelled (p := u) env (by rw [hu]; exact hc)
      (f := ⟨d.name, target, false, false⟩) (by rw [hu]; rfl) rfl p.cursor.played
      (env.config.fastForwardLimit + 1)
    exact hne (congrArg Prod.snd hv)
  have hpaced : Paced env p := ⟨hp, hlive, hs, ha⟩
  have hbound : Bound env ⟨d.name, target⟩ p.bare u := by
    refine ⟨⟨haimed.toSteps, ?_, hs, ?_⟩, haimed.target, ?_, ?_, ?_⟩
    all_goals rw [hu]
    · exact hlive
    · exact ha
    · exact ⟨0, rfl, nofun⟩
    · intro f hf hr
      cases hf
      cases hr
    · exact nofun
  have hend : Bound env ⟨d.name, target⟩ p.bare v :=
    forward_keeps (fun _ _ h hp => hp.step h) hbound.toSteps hbound hv
  obtain ⟨f, hf, hr⟩ := reached_of_forward hv
  have hbare : (v.relax p.cursor.skipping).bare = v.bare := rfl
  obtain ⟨m, hm⟩ := hend.along
  exact ⟨hpaced, hend.budget f hf hr,
    (faces_congr hbare _).trans (haimed.faces_of_forward hv), m, hbare.trans hm.1, hm.2⟩

/-- No way along the sequence goes past the command at a spot. -/
theorem Nears.le {spot : Spot} {b : Playback} {m n : Nat} (hp : Nears env spot b m p)
    (hpf : p.faces spot = true) (hq : Nears env spot b n q) : n ≤ m := by
  refine Nat.le_of_not_lt fun hlt => ?_
  have hnot := (hq.2 m hlt).1
  rw [← hp.1, faces_bare, hpf] at hnot
  cases hnot

/-- Playback that has not come to the command at a spot is before all that has. -/
theorem Nears.lt {spot : Spot} {b : Playback} {m n : Nat} (hp : Nears env spot b m p)
    (hpf : p.faces spot = false) (hq : Nears env spot b n q) (hqf : q.faces spot = true) :
    m < n := by
  refine Nat.lt_of_le_of_ne (hq.le hqf hp) ?_
  rintro rfl
  have hsame := faces_congr (hp.1.trans hq.1.symm) spot
  rw [hpf, hqf] at hsame
  cases hsame

/-- Two ways along the sequence to the command at a spot come to the same state. -/
theorem Nears.unique {spot : Spot} {b : Playback} {m n : Nat} (hp : Nears env spot b m p)
    (hq : Nears env spot b n q) (hpf : p.faces spot = true) (hqf : q.faces spot = true) :
    p.bare = q.bare := by
  rw [hp.1, hq.1, Nat.le_antisymm (hq.le hqf hp) (hp.le hpf hq)]

/-- Playback that is not run forward. -/
structure Plain (env : Env) (p : Playback) : Prop extends Paced env p where
  forward : p.player.fastForward = none

theorem Plain.step (hp : Plain env p) (h : Step env p q) : Plain env q := by
  refine ⟨hp.toPaced.step h, ?_⟩
  rcases h.lingers_or_proceeds hp.toPaced with ⟨-, hq⟩ | hq
  · rcases hq with hsame | ⟨g, -, hg, -⟩
    · exact hsame.trans hp.forward
    · cases hp.forward.symm.trans hg
  · exact hq.forward.elim (·.trans hp.forward) And.left

theorem Plain.reach (hp : Plain env p) : p.reach.2 = false := by
  unfold Playback.reach
  split
  · unfold checkForward
    rw [hp.forward]
  · rfl

/-- The first state on a path at which the command at a spot is the next one to start is the first
one of the sequence. A path without one goes along the sequence. -/
theorem Path.nears {spot : Spot} {b : Playback} {k : Nat} {l : List Playback}
    (h : Path env p l q) (hp : Plain env p) (hk : Nears env spot b k p)
    (hnot : p.faces spot = false) :
    (∀ r, l.find? (·.faces spot) = some r → ∃ m, Nears env spot b m r) ∧
      (l.find? (·.faces spot) = none →
        q.faces spot = false ∧ ∃ m, k ≤ m ∧ Nears env spot b m q) := by
  induction h generalizing k with
  | nil => exact ⟨fun r hr => (by cases hr), fun _ => ⟨hnot, k, Nat.le_refl k, hk⟩⟩
  | @cons p q r l hs tail ih =>
    have hq := hp.step hs
    have hstep : ∃ m, k ≤ m ∧ Nears env spot b m q := by
      rcases hs.lingers_or_proceeds hp.toPaced with ⟨hbare, -⟩ | hnext
      · exact ⟨k, Nat.le_refl k, hbare.trans hk.1, hk.2⟩
      · exact ⟨k + 1, Nat.le_succ k, hk.next hnot hnext.running hnext.next⟩
    obtain ⟨m, hkm, hm⟩ := hstep
    cases hfaces : q.faces spot with
    | true =>
      have hfind : (q :: l).find? (·.faces spot) = some q := List.find?_cons_of_pos hfaces
      rw [hfind]
      exact ⟨fun u hu => Option.some.inj hu ▸ ⟨m, hm⟩, fun hnone => by cases hnone⟩
    | false =>
      have hfind : (q :: l).find? (·.faces spot) = l.find? (·.faces spot) :=
        List.find?_cons_of_neg (by rw [hfaces]; exact Bool.false_ne_true)
      rw [hfind]
      obtain ⟨hfound, hnone⟩ := ih hq hm hfaces
      refine ⟨hfound, fun hl => ?_⟩
      obtain ⟨hr, n, hmn, hn⟩ := hnone hl
      exact ⟨hr, n, hkm.trans hmn, hn⟩

/-- A tick that is long enough makes the next state at once. -/
theorem tickTrace_next (hp : Plain env p) (hrun : p.player.isRunning = true)
    (hw : p.cursor.waiting = false) (hb : 0 < env.config.maxCommands) {delta : Nanoseconds}
    (hdelta : ∀ a, p.player.active = some a → a.left ≤ delta) :
    ∃ q l, p.tickTrace env delta = q :: l ∧ q.bare = p.bare.next env := by
  unfold tickTrace
  simp only [hrun, hp.live, hw, Bool.not_true, Bool.false_eq_true, if_false]
  unfold advanceTrace
  cases ha : p.player.active with
  | none =>
    obtain ⟨n, hn⟩ := Nat.exists_eq_add_one.2 hb
    obtain ⟨⟨d, hd⟩, -, i, hi⟩ := isRunning_iff.1 hrun
    dsimp only
    rw [hn]
    unfold runTrace
    simp only [hrun, hw, Bool.not_true, Bool.or_self, Bool.false_eq_true, if_false]
    rw [hd]
    unfold beginTrace
    simp only [hi, hd, hp.reach, Bool.false_eq_true, if_false]
    exact ⟨_, _, rfl, (next_of_idle ha).symm⟩
  | some a =>
    have hstep := bare_stepActive env hp.live ha (hp.active a ha _ .refl) delta
    have hnext := hstep.resolve_right fun h => absurd (hdelta a ha) (Nat.not_le.2 h.1)
    dsimp only
    split
    · rename_i hstray
      rw [stepActive_stray hstray] at hnext
      exact ⟨_, _, rfl, hnext⟩
    · exact ⟨_, _, rfl, hnext⟩

end Playhead.Playback
