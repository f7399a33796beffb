import Playhead.Proofs.Motion.Step
import Playhead.Proofs.Services.Tick
import Playhead.Proofs.Standing.Progress

/-!
However playback is played, its steps go along one sequence of states.

A step makes the next state of the sequence, or it changes nothing but how playback is played.
-/

namespace Playhead

namespace Task

/-- A task that heeds neither time nor skipping. -/
def Even (t : Task) : Prop :=
  ∀ ctx s delta skipping, t.step { ctx with delta := delta, skipping := skipping } s = t.step ctx s

/-- A task that is a wait or heeds neither time nor skipping, whatever becomes of it. -/
def Steady (t : Task) : Prop :=
  ∀ u, t.Stems u → (∃ w, u = .wait w) ∨ u.Even

theorem Steady.stems {t u : Task} (ht : t.Steady) (h : t.Stems u) : u.Steady :=
  fun v hv => ht v (h.trans hv)

/-- Whether a task may heed time. -/
def isTimed : Task → Bool
  | .wait _ | .host _ => true
  | _ => false

theorem even_of_isTimed {t : Task} (ht : t.isTimed = false) : t.Even := by
  cases t with
  | wait w => cases ht
  | host t => cases ht
  | _ => exact fun _ _ _ _ => rfl

theorem steady_of_not_isHost {t : Task} (ht : ¬t.IsHost) : t.Steady := by
  intro u hu
  have hhost := not_isHost_of_stems ht hu
  cases u with
  | wait w => exact .inl ⟨w, rfl⟩
  | host t => exact absurd trivial hhost
  | _ => exact .inr (even_of_isTimed rfl)

theorem bare_of_ne_wait {t : Task} (hw : ∀ w, t ≠ .wait w) : t.bare = t := by
  cases t with
  | wait w => exact absurd rfl (hw w)
  | _ => rfl

/-- A step does what it would do to a wait without time, or it only uses up time of the wait. -/
theorem step_bare {t : Task} (ht : (∃ w, t = .wait w) ∨ t.Even) {ctx : Context}
    (hlive : ctx.cancelled = false) (s : ServiceSet) :
    t.step ctx s = t.bare.step { ctx with delta := 0, skipping := false } s ∨
      ∃ w rest why, t = .wait w ∧ ctx.delta < w.time.getD 0 ∧
        t.step ctx s = (.suspended rest why, s) ∧ rest.bare = t.bare := by
  by_cases hw : ∃ w, t = .wait w
  · obtain ⟨w, rfl⟩ := hw
    have hbare : (wait w).bare.step { ctx with delta := 0, skipping := false } s =
        (.completed { waitForInput := w.input }, s) := by
      show (stepWait { ctx with delta := 0, skipping := false } { w with time := none }, s) = _
      unfold stepWait
      rw [hlive]
      rfl
    have hstep : (wait w).step ctx s = (stepWait ctx w, s) := rfl
    rw [hbare, hstep]
    unfold stepWait
    rw [hlive]
    cases htime : w.time with
    | none => exact .inl rfl
    | some time =>
      simp only [Bool.false_eq_true, if_false]
      by_cases hover : (if ctx.skipping = true then 0 else time - ctx.delta) = 0
      · rw [if_pos hover]
        exact .inl rfl
      · rw [if_neg hover]
        refine .inr ⟨w, _, _, rfl, ?_, rfl, rfl⟩
        rw [htime, Option.getD_some]
        split at hover
        · exact absurd rfl hover
        · exact Nat.lt_of_sub_ne_zero hover
  · left
    rw [bare_of_ne_wait fun w h => hw ⟨w, h⟩]
    exact (ht.resolve_left hw ctx s 0 false).symm

end Task

namespace Playback

variable {env : Env} {p q : Playback} {d : Document} {i : Nat}

/-- One step of playback in which no wait is held up. -/
def turn (env : Env) (p : Playback) : Playback :=
  match p.player.active with
  | some a => (p.stepActive env a 0).1
  | none => p.arrive env

/-- What follows a state apart from how it is played. -/
def next (env : Env) (p : Playback) : Playback :=
  (p.turn env).bare

theorem bare_passTo (p : Playback) (d : Document) (j : Nat) :
    (p.bare.passTo d j).bare = (p.passTo d j).bare := by
  have h : ∀ index, (p.bare.entering.withCursor { p.bare.cursor with index := index }).bare =
      (p.entering.withCursor { p.cursor with index := index }).bare := fun index =>
    congrArg (fun q : Playback => { q with player := { q.player with
      cursor := { q.player.cursor with index := index }, arrivedByBranch := false } }) p.bare_bare
  unfold passTo
  dsimp only
  split
  · exact h _
  · exact h none

theorem bare_arrive (env : Env) (p : Playback) :
    (p.bare.arrive env).bare = (p.arrive env).bare := by
  unfold arrive
  rw [show p.bare.cursor.index = p.cursor.index from rfl,
    show p.bare.player.document = p.player.document from rfl,
    show p.bare.player.arrivedByBranch = p.player.arrivedByBranch from rfl,
    show p.bare.services = p.services from rfl]
  split
  · rename_i i d hi hd
    split
    · exact p.bare_passTo d _
    · split
      · exact bare_begin env p.entering d i _ _
      · exact p.bare_bare
  · exact p.bare_bare

theorem next_of_idle (ha : p.player.active = none) : p.bare.next env = (p.arrive env).bare := by
  have hbare : p.bare.player.active = none := by
    show p.player.active.map _ = none
    rw [ha]
    rfl
  unfold next turn
  rw [hbare]
  exact bare_arrive env p

/-- A step of the command in flight makes the next state, or it only uses up time of a wait. -/
theorem bare_stepActive (env : Env) (hlive : p.scopes.isCancelled p.player.scope = false)
    {a : ActiveCommand} (ha : p.player.active = some a) (ht : (∃ w, a.task = .wait w) ∨ a.task.Even)
    (delta : Nanoseconds) :
    (p.stepActive env a delta).1.bare = p.bare.next env ∨
      delta < a.left ∧ (p.stepActive env a delta).1.bare = p.bare ∧
        (p.stepActive env a delta).1.player.fastForward = p.player.fastForward := by
  have hbare : p.bare.player.active = some { a with task := a.task.bare } := by
    show p.player.active.map _ = _
    rw [ha]
    rfl
  have hnext : p.bare.next env =
      (p.bare.stepActive env { a with task := a.task.bare } 0).1.bare := by
    unfold next turn
    rw [hbare]
  rw [hnext]
  have hfinish : ∀ {q r : Playback} (c : Completion), q.bare = r.bare →
      (finished (q.complete env a.index c a.eligible)).1.bare =
        (finished (r.complete env a.index c a.eligible)).1.bare := by
    intro q r c h
    rw [fst_finished, fst_finished]
    exact bare_congr (f := fun q => (q.complete env a.index c a.eligible).1)
      (fun q => bare_complete env q a.index c a.eligible) h
  have hbd : p.bare.player.document = p.player.document := rfl
  cases hd : p.player.document with
  | none =>
    left
    rw [stepActive_of_no_document hd, stepActive_of_no_document (hbd.trans hd), bare_bare]
  | some d =>
    cases hc : d.command? a.index with
    | none =>
      left
      rw [stepActive_of_no_command hd hc, stepActive_of_no_command (hbd.trans hd)
        (a := { a with task := a.task.bare }) hc]
      rfl
    | some c =>
      have hbc : d.command? ({ a with task := a.task.bare } : ActiveCommand).index = some c := hc
      obtain ⟨ctx, hctx⟩ : ∃ ctx : Context, ctx =
        ⟨c, ⟨d.name, a.index⟩, delta, p.cursor.skipping, false, false⟩ := ⟨_, rfl⟩
      have hstep := Task.step_bare ht (by rw [hctx] : ctx.cancelled = false) p.services
      rw [stepActive_eq hd hc, stepActive_eq (p := p.bare) hd hbc,
        show p.bare.scopes.isCancelled p.bare.player.scope = false from hlive, hlive, ← hctx,
        show (⟨c, ⟨d.name, a.index⟩, 0, p.bare.cursor.skipping, false, false⟩ : Context) =
          { ctx with delta := 0, skipping := false } by rw [hctx]; rfl]
      rcases hstep with hstep | ⟨w, rest, why, hw, hdelta, hstep, hrest⟩
      · left
        rw [show p.bare.services = p.services from rfl, ← hstep]
        generalize a.task.step ctx p.services = r
        obtain ⟨⟨rest, why⟩ | ⟨done⟩ | ⟨f⟩, s⟩ := r
        · rfl
        · exact hfinish done (q := p.released s) (r := p.bare.released s) rfl
        · exact hfinish (.ofFault c.role)
            (q := (p.released s).reportFault ⟨d.name, a.index⟩ f.message)
            (r := (p.bare.released s).reportFault ⟨d.name, a.index⟩ f.message) rfl
      · right
        rw [hstep]
        refine ⟨?_, ?_, rfl⟩
        · unfold ActiveCommand.left
          rw [hw]
          rw [hctx] at hdelta
          exact hdelta
        · show ({ p.bare with player := { p.bare.player with
            active := some { a with task := rest.bare } } } : Playback) = p.bare
          rw [hrest, ← hbare]

theorem fastForward_interrupt (p : Playback) :
    p.interrupt.player.fastForward = p.player.fastForward := by
  unfold interrupt cancelActive renewScope
  cases p.player.active <;> rfl

/-- A move that keeps the scope and a run forward, which ends only with playback. -/
structure Reined (p q : Playback) : Prop where
  scopes : q.scopes = p.scopes
  scope : q.player.scope = p.player.scope
  forward : q.player.fastForward = p.player.fastForward ∨
    q.player.fastForward = none ∧ q.cursor.index = none

theorem Reined.of_backdrop (h : q.backdrop = p.backdrop) : Reined p q :=
  ⟨congrArg Backdrop.scopes h, congrArg Backdrop.scope h, .inl (congrArg Backdrop.fastForward h)⟩

/-- A move after one that keeps the backdrop. -/
theorem Reined.after {r : Playback} (h : q.backdrop = p.backdrop) (h' : Reined q r) :
    Reined p r := by
  refine ⟨h'.scopes.trans (congrArg Backdrop.scopes h),
    h'.scope.trans (congrArg Backdrop.scope h), h'.forward.imp_left fun hf => ?_⟩
  exact hf.trans (congrArg Backdrop.fastForward h)

theorem complete_reined (env : Env) (ha : p.player.active = none) (i : Nat) (c : Completion)
    (eligible : Bool) : Reined p (p.complete env i c eligible).1 := by
  unfold complete
  cases hd : p.player.document with
  | none => exact .of_backdrop rfl
  | some d =>
    obtain ⟨k, hk, -⟩ := follow_eq env hd i c.flow
    dsimp only
    rw [hk]
    obtain ⟨q, hq⟩ : ∃ q : Playback, q = { p with
        library := k
        player := { p.player with arrivedByBranch := p.standing.arrives d i c.flow } } := ⟨_, rfl⟩
    have hqa : q.player.active = none := by rw [hq]; exact ha
    have hreined : Reined p q := by rw [hq]; exact ⟨rfl, rfl, .inl rfl⟩
    rw [← hq]
    have hafter : ∀ {r : Playback}, Reined q r → Reined p r := by
      intro r hr
      rw [hq] at hr
      exact ⟨hr.scopes, hr.scope, hr.forward⟩
    cases (p.shelf env).follow d i c.flow with
    | error e =>
      dsimp only
      rw [stop_of_idle hqa]
      exact hafter ⟨rfl, rfl, .inr ⟨rfl, rfl⟩⟩
    | ok r =>
      obtain ⟨next, j⟩ := r
      obtain ⟨r, m, hr, he, -⟩ := capture_captured next j c eligible hqa
      dsimp only
      rw [he]
      refine hafter (.of_backdrop ?_)
      have hmoved := fun reason => keeps_moveTo { r with manager := m } next j reason
      have hsettled := fun reason => (settle_eq
        (({ r with manager := m } : Playback).moveTo next j reason) c
        (addsChoice env.source.registry next j)).2.2.1
      exact ((hsettled _).backdrop.trans (hmoved _).backdrop).trans hr.backdrop

theorem begin_reined (env : Env) (ha : p.player.active = none) (d : Document) (i : Nat)
    (c : Command) (h : Handler) : Reined p (p.begin env d i c h).1 := by
  obtain ⟨-, -, hk, -⟩ := reported_eq env p ⟨d.name, i⟩ c.name
  rw [begin_eq]
  generalize p.reported env ⟨d.name, i⟩ c.name = q at hk ⊢
  cases h.begin c with
  | ok t => exact .after hk.backdrop ⟨rfl, rfl, .inl rfl⟩
  | error f =>
    dsimp only
    rw [fst_passed]
    have hcomplete := complete_reined env (p := q.reportFault ⟨d.name, i⟩ f.message)
      (hk.active.trans ha) i (.ofFault c.role) h.eligible
    exact .after (q := q.reportFault ⟨d.name, i⟩ f.message) hk.backdrop hcomplete

theorem arrive_reined (env : Env) (ha : p.player.active = none) : Reined p (p.arrive env) := by
  unfold arrive
  split
  · split
    · unfold passTo
      dsimp only
      split <;> exact ⟨rfl, rfl, .inl rfl⟩
    · split
      · exact .after (q := p.entering) rfl (begin_reined env (p := p.entering) ha _ _ _ _)
      · exact .of_backdrop rfl
  · exact .of_backdrop rfl

theorem stepActive_reined (env : Env) (p : Playback) (a : ActiveCommand) (delta : Nanoseconds) :
    Reined p (p.stepActive env a delta).1 := by
  have hfinish : ∀ {q : Playback} (c : Completion), q.player.active = none →
      q.backdrop = p.backdrop → Reined p (finished (q.complete env a.index c a.eligible)).1 := by
    intro q c hq h
    rw [fst_finished]
    exact .after h (complete_reined env hq _ _ _)
  unfold stepActive
  dsimp only
  split
  · exact .of_backdrop rfl
  · split
    · exact ⟨rfl, rfl, .inl rfl⟩
    · generalize a.task.step _ p.services = r
      obtain ⟨⟨task, why⟩ | ⟨done⟩ | ⟨f⟩, s⟩ := r
      · exact ⟨rfl, rfl, .inl rfl⟩
      · exact hfinish _ rfl rfl
      · exact hfinish _ rfl rfl

/-- Playback that nothing has cancelled and whose commands go on in the same way, however it is
played. -/
structure Paced (env : Env) (p : Playback) : Prop extends Steps env p where
  live : p.scopes.isCancelled p.player.scope = false
  starts : env.source.registry.Starts Task.Steady
  active : ∀ a, p.player.active = some a → a.task.Steady

/-- Whether the command at a spot is the next one to start. -/
def faces (p : Playback) (spot : Spot) : Bool :=
  p.player.active.isNone && p.cursor.spot? = some spot

theorem faces_bare (p : Playback) (spot : Spot) : p.bare.faces spot = p.faces spot := by
  show ((p.player.active.map _).isNone && _) = _
  rw [Option.isNone_map]
  rfl

theorem faces_congr (h : q.bare = p.bare) (spot : Spot) : q.faces spot = p.faces spot := by
  rw [← q.faces_bare, h, p.faces_bare]

/-- Coming to the next command leaves a run forward as it is or ends it, at its target only if the
command there is the next one to start. -/
theorem forward_reach (hp : Steps env p) (ha : p.player.active = none) :
    p.reach.1.player.fastForward = p.player.fastForward ∨
      ∃ g f, p.player.fastForward = some g ∧ p.reach.1.player.fastForward = some f ∧
        f.script = g.script ∧ f.target = g.target ∧
          (f.reached = true → g.reached = true ∨ p.faces ⟨g.script, g.target⟩ = true) := by
  by_cases hat : ∃ i d, p.cursor.index = some i ∧ p.player.document = some d
  · obtain ⟨i, d, hi, hd⟩ := hat
    rw [reach_eq hd hi]
    unfold checkForward
    cases hf : p.player.fastForward with
    | none => exact .inl hf
    | some g =>
      dsimp only
      split
      · rename_i hend
        refine .inr ⟨g, _, rfl, rfl, ?_⟩
        split
        · rename_i htarget
          refine ⟨rfl, rfl, fun _ => .inr ?_⟩
          have hscript : g.script = d.name := of_decide_eq_true (Bool.and_eq_true_iff.1 hend).1
          unfold faces Cursor.spot?
          rw [ha, hi, hscript, htarget, ← (hp.placed.script d hd).1]
          exact decide_eq_true rfl
        · exact ⟨rfl, rfl, .inl⟩
      · exact .inl hf
  · left
    unfold Playback.reach
    split
    · rename_i i d hi hd
      exact absurd ⟨i, d, hi, hd⟩ hat
    · rfl

/-- A step that changes nothing but how playback is played. A run forward ends at its target only
if the command there is the next one to start. -/
def Lingers (env : Env) (p q : Playback) : Prop :=
  q.bare = p.bare ∧ (q.player.fastForward = p.player.fastForward ∨
    ∃ g f, p.player.fastForward = some g ∧ q.player.fastForward = some f ∧
      f.script = g.script ∧ f.target = g.target ∧
        (f.reached = true → g.reached = true ∨
          p.faces ⟨g.script, g.target⟩ = true ∧ 0 < env.config.maxCommands))

/-- A step that makes the next state, which it does not at the end of a run forward. -/
structure Proceeds (env : Env) (p q : Playback) : Prop extends Reined p q where
  next : q.bare = p.bare.next env
  running : p.player.isRunning = true
  going : p.player.active = none → p.reach.2 = false

theorem Step.lingers_or_proceeds (hp : Paced env p) (h : Step env p q) :
    Lingers env p q ∨ Proceeds env p q := by
  cases h with
  | interrupt hc => rw [hp.live] at hc; cases hc
  | leave delta =>
    have hback := (Stays.leaveWait env p delta).backdrop
    exact .inl ⟨p.bare_leaveWait env delta, .inl (congrArg Backdrop.fastForward hback)⟩
  | goOn =>
    have hback := (Stays.continueInput p).backdrop
    exact .inl ⟨p.bare_continueInput, .inl (congrArg Backdrop.fastForward hback)⟩
  | reach hb ha =>
    refine .inl ⟨?_, (forward_reach hp.toSteps ha).imp_right ?_⟩
    · unfold Playback.reach
      split
      · exact p.bare_checkForward _ _
      · rfl
    · rintro ⟨g, f, hg, hf, hscript, htarget, hreached⟩
      exact ⟨g, f, hg, hf, hscript, htarget, fun hr => (hreached hr).imp_right (⟨·, hb⟩)⟩
  | arrive hrun ha hreach =>
    exact .inr ⟨arrive_reined env ha, (next_of_idle ha).symm, hrun, fun _ => hreach⟩
  | @work a hrun ha delta =>
    rcases bare_stepActive env hp.live ha (hp.active a ha _ .refl) delta with
      h | ⟨-, h, hf⟩
    · refine .inr ⟨stepActive_reined env p a delta, h, hrun, fun hnone => ?_⟩
      cases ha.symm.trans hnone
    · exact .inl ⟨h, .inl hf⟩

theorem Paced.step (hp : Paced env p) (h : Step env p q) : Paced env q := by
  have hturns := h.turns (w := .none) hp.registry hp.read
  have hlive : q.scopes = p.scopes ∧ q.player.scope = p.player.scope := by
    rcases h.lingers_or_proceeds hp with ⟨hq, -⟩ | hq
    · have h : q.bare.scopes = p.bare.scopes ∧ q.bare.player.scope = p.bare.player.scope := by
        rw [hq]
        exact ⟨rfl, rfl⟩
      exact h
    · exact ⟨hq.scopes, hq.scope⟩
  refine ⟨hp.toSteps.turns hturns, ?_, hp.starts, ?_⟩
  · rw [hlive.1, hlive.2]
    exact hp.live
  · exact Bearings.Turns.starts hturns hp.starts (fun _ _ h ht => ht.stems h) hp.active

theorem stepActive_even (env : Env) {a : ActiveCommand} (ht : a.task.Even) (delta : Nanoseconds) :
    p.stepActive env a delta = p.stepActive env a 0 := by
  unfold stepActive
  dsimp only
  split
  · rfl
  · split
    · rfl
    · rename_i d _ _ c _
      have h := ht ⟨c, ⟨d.name, a.index⟩, 0, p.cursor.skipping, false,
        p.scopes.isCancelled p.player.scope⟩ p.services delta p.cursor.skipping
      dsimp only at h
      rw [h]

/-- Whether the next command is started and is a built-in one that is no wait. -/
def startsUntimed (env : Env) (p : Playback) : Bool :=
  match p.beginNext env with
  | (q, .ok .started) => q.player.active.any fun a => !a.task.isTimed
  | _ => false

theorem run_even (hp : p.startsUntimed env = true) (n : Nat) (delta : Nanoseconds) :
    run env n delta p = run env n 0 p ∧ runTrace env n delta p = runTrace env n 0 p := by
  unfold startsUntimed at hp
  split at hp
  · rename_i q hq
    obtain ⟨a, ha, ht⟩ := (Option.any_eq_true _ _).1 hp
    have hstep := stepActive_even (p := q) env
      (Task.even_of_isTimed ((Bool.not_eq_eq_eq_not.1 ht).trans rfl)) delta
    cases n with
    | zero => exact ⟨rfl, rfl⟩
    | succ n =>
      unfold run runTrace
      simp only [hq, ha, hstep, and_self]
  · cases hp

/-- How long a tick is has no part in it if the command that it starts first heeds no time. -/
theorem tick_even (hw : p.cursor.waiting = false) (ha : p.player.active = none)
    (hp : p.startsUntimed env = true) (delta : Nanoseconds) :
    p.tick env delta = p.tick env 0 ∧ p.tickTrace env delta = p.tickTrace env 0 := by
  obtain ⟨hrun, htrace⟩ := run_even hp env.config.maxCommands delta
  unfold tick tickTrace advance advanceTrace
  simp only [hw, ha, hrun, htrace, Bool.false_eq_true, if_false, and_self]

/-- Playback that waits for a selection. -/
structure Asks (p : Playback) : Prop where
  live : p.scopes.isCancelled p.player.scope = false
  waiting : p.cursor.waiting = true
  pending : p.choicesPending = true

theorem Asks.continueInput (hp : p.Asks) : p.continueInput = p := by
  unfold Playback.continueInput
  simp only [hp.pending, Bool.or_true, if_true]

theorem Asks.tick (hp : p.Asks) (env : Env) (delta : Nanoseconds) :
    (p.tick env delta).1 = p ∧ ∀ q ∈ p.tickTrace env delta, q = p := by
  have hleave := leaveWait_of_choices hp.pending env delta
  unfold Playback.tick tickTrace
  by_cases hrun : p.player.isRunning = true
  · simp [hrun, hp.live, hp.waiting, hleave]
  · simp [hrun]

end Playback

end Playhead
