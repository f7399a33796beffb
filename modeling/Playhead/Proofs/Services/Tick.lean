import Playhead.Proofs.Bearings.Basic
import Playhead.Proofs.Services.Task
import Playhead.Proofs.Standing.Tick

/-!
Main playback leaves the same services as long as its commands do.
-/

namespace Playhead

/-- What a registry's commands are and stay as long as they are in flight, the command in flight is
after any turns. -/
theorem Bearings.Turns.starts {registry : Registry} {w : Leeway} {b c : Bearings}
    {P : Task → Prop} (h : Turns registry w b c) (hr : registry.Starts P)
    (hP : ∀ t u, t.Stems u → P t → P u) (hb : ∀ a, b.active = some a → P a.task) :
    ∀ a, c.active = some a → P a.task := by
  refine h.keeps (I := fun b => ∀ a, b.active = some a → P a.task) (fun b c hturn hb => ?_) hb
  have hidle : ∀ {b : Bearings}, b.active = none → ∀ a, b.active = some a → P a.task :=
    fun hnone a ha => by rw [hnone] at ha; cases ha
  cases hturn with
  | start hd hi ha hc hget hbegin =>
    intro a h
    cases h
    exact hr _ _ _ _ hget hbegin
  | @work a task ctx s s' why ha ht =>
    intro a' h
    cases h
    exact hP a.task task (.single ⟨ctx, s, why, s', ht⟩) (hb a ha)
  | drop => exact hidle rfl
  | _ => exact hb

namespace Playback

/-- Playback over services of a shape, which the command in flight leaves as they are. -/
structure Tame (σ : ServiceSet) (p : Playback) : Prop where
  shape : p.services.shape = σ
  active : ∀ a, p.player.active = some a → a.task.Tame

variable {env : Env} {σ : ServiceSet} {p q : Playback}

theorem Tame.congr (hp : p.Tame σ) (hs : q.services = p.services)
    (ha : q.player.active = p.player.active) : q.Tame σ :=
  ⟨hs ▸ hp.shape, fun a h => hp.active a (ha ▸ h)⟩

section

variable (p : Playback)

theorem services_setSkip (on : Bool) : (p.setSkip on).services = p.services := by
  unfold setSkip
  split <;> rfl

theorem services_setAutoPlay (on : Bool) : (p.setAutoPlay on).services = p.services := by
  unfold setAutoPlay
  split <;> rfl

theorem services_continueInput : p.continueInput.services = p.services := by
  unfold continueInput
  split <;> rfl

theorem services_presentChoices : p.presentChoices.services = p.services := by
  unfold presentChoices
  split
  · exact p.services_setSkip false
  · rfl

theorem services_settleWaiting (waiting : Bool) :
    (p.settleWaiting waiting).services = p.services := by
  unfold settleWaiting
  split
  · exact p.services_presentChoices
  · split <;> rfl

theorem services_enterScript (d : Document) : (p.enterScript d).services = p.services := by
  unfold enterScript
  split <;> rfl

theorem services_moveTo (d : Document) (i : Nat) (atEnd : StopReason) :
    (p.moveTo d i atEnd).services = p.services := by
  have h := p.services_enterScript d
  unfold moveTo
  dsimp only
  split <;> exact h

theorem services_settle (c : Completion) (adds : Bool) :
    (p.settle c adds).services = p.services := by
  unfold settle
  split
  · rfl
  · split
    · rfl
    · split
      · exact p.services_presentChoices
      · split <;> rfl

theorem lockNewest_frame (allow : Bool) : (p.lockNewest allow).services = p.services ∧
    (p.lockNewest allow).player = p.player := by
  unfold lockNewest
  split <;> exact ⟨rfl, rfl⟩

theorem capture_frame (d : Document) (next : Nat) (c : Completion) :
    (p.capture d next c).services = p.services ∧ (p.capture d next c).player = p.player := by
  unfold capture
  split
  · exact ⟨rfl, rfl⟩
  · dsimp only
    split <;> exact ⟨rfl, rfl⟩

theorem services_checkForward (d : Document) (i : Nat) :
    (p.checkForward d i).1.services = p.services := by
  unfold checkForward
  split
  · rfl
  · split <;> rfl

theorem services_leaveWait (env : Env) (delta : Nanoseconds) :
    (p.leaveWait env delta).1.services = p.services := by
  obtain ⟨t, h⟩ | ⟨t, h⟩ := leaveWait_cases env p delta <;> rw [h] <;> rfl

/-- Looking up where a jump leads changes neither the services nor what is in flight. -/
theorem resolveJump_frame (env : Env) (target : JumpTarget) :
    (p.resolveJump env target).1.services = p.services ∧
      (p.resolveJump env target).1.player = p.player := by
  obtain ⟨k, -, hk⟩ := resolveJump_library env p target
  rw [hk]
  exact ⟨rfl, rfl⟩

theorem follow_frame (env : Env) (d : Document) (i : Nat) (flow : Flow) :
    (p.follow env d i flow).1.services = p.services ∧
      (p.follow env d i flow).1.player.active = p.player.active := by
  unfold follow
  split
  · exact ⟨rfl, rfl⟩
  · exact ⟨rfl, rfl⟩
  · exact ⟨rfl, rfl⟩
  · rename_i target
    obtain ⟨hs, hp⟩ := p.resolveJump_frame env target
    exact ⟨hs, congrArg Player.active hp⟩

end

theorem Tame.cancelActive (hp : p.Tame σ) : p.cancelActive.Tame σ := by
  unfold Playback.cancelActive
  cases ha : p.player.active with
  | none => exact hp
  | some a =>
    refine ⟨?_, fun _ h => by cases h⟩
    exact ((hp.active a ha _ .refl p.services).1).trans hp.shape

theorem Tame.stop (hp : p.Tame σ) (reason : StopReason) : (p.stop reason).Tame σ :=
  hp.cancelActive.congr rfl rfl

theorem Tame.start (hp : p.Tame σ) (d : Document) (i : Nat) : (p.start d i).Tame σ := by
  have hcancel := hp.cancelActive
  have hskip := p.cancelActive.services_setSkip false
  have hservices : (p.start d i).services = p.cancelActive.services := by
    unfold Playback.start
    dsimp only
    split <;> exact hskip
  refine ⟨hservices ▸ hcancel.shape, fun a ha => ?_⟩
  have hnone : (p.start d i).player.active = none := congrArg Bearings.active (p.bearings_start d i)
  rw [hnone] at ha
  cases ha

theorem services_restorePosition (p : Playback) (d : Document) (i played : Nat) (waiting : Bool) :
    (p.restorePosition d i played waiting).services = p.cancelActive.services := by
  have henter := ((p.cancelActive.setSkip false).services_enterScript d).trans
    (p.cancelActive.services_setSkip false)
  unfold restorePosition
  dsimp only
  rw [services_settleWaiting]
  exact henter

theorem Tame.restorePosition (hp : p.Tame σ) (d : Document) (i played : Nat) (waiting : Bool) :
    (p.restorePosition d i played waiting).Tame σ := by
  refine ⟨?_, fun a ha => ?_⟩
  · rw [services_restorePosition]
    exact hp.cancelActive.shape
  · have hnone : (p.restorePosition d i played waiting).player.active = none :=
      congrArg Bearings.active (p.bearings_restorePosition d i played waiting)
    cases hnone.symm.trans ha

theorem Tame.complete (hp : p.Tame σ) (env : Env) (index : Nat) (c : Completion) (eligible : Bool) :
    (p.complete env index c eligible).1.Tame σ := by
  unfold Playback.complete
  split
  · exact hp
  · rename_i d hd
    obtain ⟨hs, ha⟩ := p.follow_frame env d index c.flow
    generalize p.follow env d index c.flow = r at hs ha ⊢
    obtain ⟨q, e | ⟨next, i⟩⟩ := r
    · exact (hp.congr hs ha).stop _
    · dsimp only at hs ha ⊢
      obtain ⟨u, hu⟩ : ∃ u, u = if (eligible && decide (i < next.size)) = true then
          (q.lockNewest c.allowRollback).capture next i c else q.lockNewest c.allowRollback :=
        ⟨_, rfl⟩
      have hframe : u.services = q.services ∧ u.player = q.player := by
        obtain ⟨hs, hp⟩ := q.lockNewest_frame c.allowRollback
        rw [hu]
        split
        · obtain ⟨hs', hp'⟩ := (q.lockNewest c.allowRollback).capture_frame next i c
          exact ⟨hs'.trans hs, hp'.trans hp⟩
        · exact ⟨hs, hp⟩
      rw [← hu]
      refine hp.congr ?_ ?_
      · rw [services_settle, services_moveTo, hframe.1, hs]
      · refine (congrArg Bearings.active (bearings_settle _ _ _)).trans ?_
        refine (congrArg Bearings.active (u.bearings_moveTo _ _ _)).trans ?_
        exact (congrArg Player.active hframe.2).trans ha

theorem Tame.trackRead (hp : p.Tame σ) (env : Env) (s : Spot) : (p.trackRead env s).Tame σ := by
  unfold Playback.trackRead
  split
  · exact hp
  · rename_i played hplayed
    have hshape : ServiceSet.shape
        { p.services with played := some (played.mark s.script s.index) } = p.services.shape := by
      unfold ServiceSet.shape
      rw [hplayed]
      rfl
    have hmarked : (p.withServices { p.services with
        played := some (played.mark s.script s.index) }).Tame σ :=
      ⟨hshape.trans hp.shape, hp.active⟩
    dsimp only
    split
    · exact hmarked.congr (services_setSkip _ _) (congrArg Bearings.active (bearings_setSkip _ _))
    · exact hmarked

theorem Tame.begin (hr : env.source.registry.Starts Task.Tame) (hp : p.Tame σ) {d : Document}
    {index : Nat} {c : Command} {h : Handler} (hh : env.source.registry.get? c.name = some h) :
    (p.begin env d index c h).1.Tame σ := by
  obtain ⟨u, hu⟩ : ∃ u, u = p.reported env ⟨d.name, index⟩ c.name := ⟨_, rfl⟩
  have hcounted : (p.withCursor { p.cursor with played := p.cursor.played + 1 }).Tame σ :=
    hp.congr rfl rfl
  have htracked : u.Tame σ := by
    rw [hu]
    exact (hcounted.trackRead env ⟨d.name, index⟩).congr rfl rfl
  rw [begin_eq, ← hu]
  cases ht : h.begin c with
  | ok task =>
    refine ⟨htracked.shape, fun a ha => ?_⟩
    cases ha
    exact hr c.name h c task hh ht
  | error f =>
    have hfault : (u.reportFault ⟨d.name, index⟩ f.message).Tame σ := htracked.congr rfl rfl
    dsimp only
    rw [fst_passed]
    exact hfault.complete env index (.ofFault c.role) h.eligible

theorem Tame.stepActive (hp : p.Tame σ) (env : Env) {a : ActiveCommand}
    (ha : p.player.active = some a) (delta : Nanoseconds) :
    (p.stepActive env a delta).1.Tame σ := by
  have hfinish : ∀ (q : Playback) (c : Completion), q.Tame σ →
      (finished (q.complete env a.index c a.eligible)).1.Tame σ := by
    intro q c hq
    rw [fst_finished]
    exact hq.complete env a.index c a.eligible
  have htask := hp.active a ha
  unfold Playback.stepActive
  dsimp only
  split
  · exact hp
  · split
    · exact ⟨hp.shape, fun _ h => by cases h⟩
    · have hshape := fun ctx => (htask _ .refl p.services).2 ctx
      generalize hstep : a.task.step _ p.services = r
      have hs : r.2.shape = σ := by
        rw [← hstep]
        exact (hshape _).trans hp.shape
      obtain ⟨⟨task, why⟩ | ⟨done⟩ | ⟨f⟩, s⟩ := r
      · refine ⟨hs, fun a' h => ?_⟩
        cases h
        exact htask.suspended hstep
      · exact hfinish _ _ ⟨hs, fun _ h => by cases h⟩
      · exact hfinish _ _ ⟨hs, fun _ h => by cases h⟩

theorem kept_tame (hr : env.source.registry.Starts Task.Tame) : Kept env (Tame σ) where
  begins hh hp := hp.begin hr hh
  steps delta ha hp := hp.stepActive env ha delta
  reaches {p} d i hp := hp.congr (p.services_checkForward d i)
    (congrArg Bearings.active (p.bearings_checkForward d i))
  enters hp := hp.congr rfl rfl
  faults _ _ hp := hp.congr rfl rfl
  moves _ hp := hp.congr rfl rfl
  ends hp := hp.congr rfl rfl
  drops hp := ⟨hp.shape, fun _ h => by cases h⟩
  waits {p} delta hp := hp.congr (p.services_leaveWait env delta)
    (congrArg Bearings.active (p.bearings_leaveWait env delta))

theorem Tame.interrupt (hp : p.Tame σ) : p.interrupt.Tame σ :=
  hp.cancelActive.congr rfl rfl

theorem Tame.tick (hr : env.source.registry.Starts Task.Tame) (hp : p.Tame σ)
    (delta : Nanoseconds) : (p.tick env delta).1.Tame σ :=
  (kept_tame hr).tick (fun hq => hq.interrupt) delta hp

theorem Tame.fastForward (hr : env.source.registry.Starts Task.Tame) (hp : p.Tame σ)
    (target : Nat) : (p.fastForward env target).1.Tame σ :=
  (kept_tame hr).fastForward (fun hq => hq.interrupt) (fun _ _ hq => hq.congr rfl rfl) target hp

end Playback

end Playhead
