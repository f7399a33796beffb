import Playhead.Proofs.Engine.Acts
import Playhead.Proofs.Motion.Calls

/-!
What a tick that fails leaves behind: playback is over and nothing was captured, but a `gosub` has
put its place on the call stack, and a `return` has taken one off it.

The last move of such a tick is a step of the command in flight, which asks for a jump that leads
nowhere after it has written to the services.
-/

namespace Playhead

/-- How a task asks for a jump, and what it has made of the services by then. -/
inductive Task.Asks (ctx : Context) (s : ServiceSet) : Task → JumpTarget → ServiceSet → Prop where
  | goto (target : JumpTarget) : Asks ctx s (.jump target false) target s
  | gosub (target : JumpTarget) {k k' : CallStack} (hk : s.callStack = some k)
      (hpush : k.push? ⟨ctx.spot.script, ctx.spot.index + 1⟩ = some k') :
      Asks ctx s (.jump target true) target { s with callStack := some k' }
  | back {k k' : CallStack} {f : Spot} (hk : s.callStack = some k)
      (hpop : k.pop? = some (f, k')) :
      Asks ctx s .returnToCaller (.spot f) { s with callStack := some k' }
  | host {t : HostTask} {c : Completion} {target : JumpTarget} {s' : ServiceSet}
      (h : (Task.host t).step ctx s = (.completed c, s')) (hflow : c.flow = .jump target) :
      Asks ctx s (.host t) target s'

/-- A task that completes with a jump asks for it. -/
theorem Task.asks_of_completed {t : Task} {ctx : Context} {s s' : ServiceSet} {c : Completion}
    {target : JumpTarget} (h : t.step ctx s = (.completed c, s'))
    (hflow : c.flow = .jump target) : t.Asks ctx s target s' := by
  by_cases ht : t.IsHost
  · cases t with
    | host t => exact .host h hflow
    | _ => exact ht.elim
  · have hstep := stepsTo_step ht ctx s
    rw [h] at hstep
    cases hstep with
    | goto target =>
      cases hflow
      exact .goto target
    | gosub hctx hs hk target =>
      cases hflow
      exact .gosub target hs hk
    | returnToCaller hs hk =>
      cases hflow
      exact .back hs hk
    | _ => cases hflow

namespace Playback

/-- A move in which the command in flight asks for a jump that leads nowhere. What it has made of
the services stays; nothing is captured, and playback is over. -/
structure Move.Derails (env : Env) (m : Move) (target : JumpTarget) (why : JumpError) : Prop where
  asks : ∃ d a ctx, m.before.player.document = some d ∧ m.before.player.active = some a ∧
    ctx.spot = ⟨d.name, a.index⟩ ∧ a.task.Asks ctx m.before.services target m.after.services
  unresolved : (m.before.resolveJump env target).2 = .error why
  index : m.after.cursor.index = none
  idle : m.after.player.active = none
  events : m.after.scene.events = m.before.scene.events ++ [.stopped (.fault why.message)]
  manager : m.after.manager = m.before.manager

variable {env : Env} {p q : Playback} {d : Document} {l : List Playback} {why : JumpError}

theorem Path.along_append (h : Path env p l q) (m : List Playback) :
    Move.along p (l ++ m) = Move.along p l ++ Move.along q m := by
  induction h with
  | nil => rfl
  | cons _ _ ih => exact congrArg (_ :: ·) ih

/-- Where a jump leads is told by the script that plays and by the scripts that are held. -/
theorem snd_resolveJump_congr (env : Env) (hd : q.player.document = p.player.document)
    (hl : q.library = p.library) (target : JumpTarget) :
    (q.resolveJump env target).2 = (p.resolveJump env target).2 := by
  have hshelf : q.shelf env = p.shelf env := by
    unfold shelf
    rw [hl]
  cases hp : p.player.document with
  | none =>
    unfold resolveJump
    simp only [hd, hp]
  | some current =>
    obtain ⟨k, hk, -⟩ := @resolveJump_eq env p current hp target
    obtain ⟨k', hk', -⟩ := @resolveJump_eq env q current (hd.trans hp) target
    rw [hk, hk', hshelf]

/-- Only a jump keeps playback from going on after a command. -/
theorem complete_error {index : Nat} {c : Completion} {eligible : Bool}
    (hd : p.player.document = some d)
    (h : p.complete env index c eligible = (q, .error why)) :
    ∃ target k, c.flow = .jump target ∧ (p.resolveJump env target).2 = .error why ∧
      q = ({ p with library := k } : Playback).stop (.fault why.message) := by
  have hfails : (p.follow env d index c.flow).2 = .error why := by
    unfold complete at h
    simp only [hd] at h
    generalize p.follow env d index c.flow = r at h ⊢
    obtain ⟨u, e | place⟩ := r <;> cases h
    rfl
  cases hflow : c.flow with
  | jump target =>
    obtain ⟨k, -, hk⟩ := resolveJump_library env p target
    have hend := complete_refused index c eligible hd hfails
    rw [h, hflow, show p.follow env d index (.jump target) = p.resolveJump env target from rfl,
      hk] at hend
    rw [hflow] at hfails
    exact ⟨target, k, rfl, hfails, hend⟩
  | _ =>
    rw [hflow] at hfails
    cases hfails

/-- The step of a command in flight that fails is one that asks for a jump. -/
theorem stepActive_derails {a : ActiveCommand} {delta : Nanoseconds}
    (ha : p.player.active = some a) (h : p.stepActive env a delta = (q, .error why)) :
    ∃ target, Move.Derails env ⟨p, q⟩ target why := by
  cases hd : p.player.document with
  | none =>
    rw [stepActive_of_no_document hd] at h
    cases h
  | some d =>
    cases hc : d.command? a.index with
    | none =>
      rw [stepActive_of_no_command hd hc] at h
      cases h
    | some c =>
      rw [stepActive_eq hd hc] at h
      generalize hctx : (⟨c, ⟨d.name, a.index⟩, delta, p.cursor.skipping, false,
        p.scopes.isCancelled p.player.scope⟩ : Context) = ctx at h
      cases hstep : a.task.step ctx p.services with
      | mk progress s =>
        rw [hstep] at h
        obtain ⟨task, w⟩ | ⟨done⟩ | ⟨f⟩ := progress
        · cases h
        · obtain ⟨target, k, hflow, hwhy, rfl⟩ :=
            complete_error (p := p.released s) hd (eq_error_of_finished h)
          have hsame := snd_resolveJump_congr (p := p) (q := p.released s) env rfl rfl target
          rw [stop_of_idle rfl]
          exact ⟨target, {
            asks := ⟨d, a, ctx, hd, ha, by rw [← hctx], Task.asks_of_completed hstep hflow⟩
            unresolved := hsame.symm.trans hwhy
            index := rfl
            idle := rfl
            events := Scene.events_emit _ _
            manager := rfl }⟩
        · have herror := congrArg Prod.snd (eq_error_of_finished h)
          exact absurd herror (complete_ofFault_ne env _ _ _ _ why)

/-- A tick fails only in a move that derails, which is its last. -/
theorem tick_derails (delta : Nanoseconds) (hp : Steps env p)
    (h : p.tick env delta = (q, .error why)) :
    ∃ earlier u target, p.tickTrace env delta = earlier ++ [q] ∧ Path env p earlier u ∧
      Move.Derails env ⟨u, q⟩ target why := by
  obtain ⟨earlier, u, a, spent, htrace, hpath, ha, hstep⟩ :=
    (tick_along delta hp).fails why (congrArg Prod.snd h)
  rw [h] at htrace hstep
  obtain ⟨target, hlast⟩ := stepActive_derails ha hstep
  exact ⟨earlier, u, target, htrace, hpath, hlast⟩

end Playback

end Playhead

namespace Playhead.Engine

open Playback (Move Path)

variable {e e' : Engine} {err : EngineError}

/-- A tick fails only where the command in flight asks for a jump that leads nowhere, which is the
last move of playback in the tick. Playback is over then, and history is as it was before that move.
The services are as the command left them when it asked, until the transient scripts take their
turn. -/
theorem tick_error_derails (he : e.Reachable) {delta : Nanoseconds}
    (h : e.tick delta = (e', .error err)) :
    ∃ earlier m target why, e.moves (.input (.tick delta)) = earlier ++ [m] ∧
      err = .jump why ∧ m.Derails e.env target why ∧
      e'.cursor.index = none ∧ e'.player.active = none ∧ e'.stack = m.before.manager.stack ∧
      e' = (({ e with playback := m.after } : Engine).reapCancelled).turnTransients delta ∧
      (e.transients.runs = [] → e'.services = m.after.services) := by
  have hsteps := he.sited.toSteps
  cases htick : e.playback.tick e.env delta with
  | mk q result =>
    have hafter :
        e' = (({ e with playback := q } : Engine).reapCancelled).turnTransients delta := by
      refine (congrArg Prod.fst h).symm.trans ?_
      unfold tick turnTransients
      rw [htick]
    have hresult : result.mapError .jump = .error err := by
      refine Eq.trans ?_ (congrArg Prod.snd h)
      unfold tick
      rw [htick]
    obtain ⟨why⟩ | ⟨⟨⟩⟩ := result
    · obtain ⟨earlier, u, target, htrace, hpath, hlast⟩ :=
        Playback.tick_derails delta hsteps htick
      refine ⟨Move.along e.playback earlier, ⟨u, q⟩, target, why, ?_,
        (Except.error.inj hresult).symm, hlast, ?_, ?_, ?_, hafter, fun halone => ?_⟩
      · show Move.along e.playback (e.playback.tickTrace e.env delta) = _
        rw [htrace, hpath.along_append]
        rfl
      · rw [hafter]
        exact hlast.index
      · rw [hafter]
        exact hlast.idle
      · rw [hafter]
        exact congrArg StateManager.stack hlast.manager
      · have hsame := tick_alone halone delta
        rw [h, htick] at hsame
        exact congrArg Engine.services hsame
    · cases hresult

/-- A script that begins with a jump to a label that is not there. -/
def lost (command : String) : List Operation :=
  [.loadScript "tale" ("@" ++ command ++ " .Missing\n"), .playFrom "tale" 0]

/-- A `goto` leaves the services as they were. -/
theorem tick_error_derails_goto : ∃ (e e' : Engine) (m : Move) (target : JumpTarget)
    (why : JumpError), e.Reachable ∧ e.tick 0 = (e', .error (.jump why)) ∧
    m.Derails e.env target why ∧ e'.cursor.index = none ∧
    e'.stack = m.before.manager.stack ∧ e'.services = m.after.services := by
  have hrun : ((build {} {}).toOption.any fun e =>
      (e.performAll (lost "goto")).transients.runs.isEmpty ∧
        ((e.performAll (lost "goto")).tick 0).2.toOption = none) = true := by
    decide +kernel
  obtain ⟨e, he, hcheck⟩ := (Option.any_eq_true _ _).1 hrun
  obtain ⟨halone, hfails⟩ := of_decide_eq_true hcheck
  have hreach := (Reachable.build (eq_ok_of_toOption he)).performAll (lost "goto")
  generalize h : (e.performAll (lost "goto")).tick 0 = r at hfails
  obtain ⟨e', err | _⟩ := r
  · obtain ⟨earlier, m, target, why, -, rfl, hm, hindex, -, hstack, -, hservices⟩ :=
      tick_error_derails hreach h
    exact ⟨_, e', m, target, why, hreach, h, hm, hindex, hstack,
      hservices (List.isEmpty_iff.1 halone)⟩
  · cases hfails

/-- The place after a `gosub` that leads nowhere stays on the call stack. -/
theorem tick_keeps_lost_frame : ∃ (e : Engine) (m : Move), e.Reachable ∧
    (e.tick 0).2.toOption = none ∧ (e.moves (.input (.tick 0))).getLast? = some m ∧
    m.before.services.callStack ≠ m.after.services.callStack ∧
    (e.tick 0).1.services.callStack ≠ m.before.services.callStack := by
  have hrun : ((build {} {}).toOption.any fun e =>
      ((e.performAll (lost "gosub")).tick 0).2.toOption = none ∧
        ((e.performAll (lost "gosub")).moves (.input (.tick 0))).getLast?.any fun m =>
          m.before.services.callStack ≠ m.after.services.callStack ∧
            ((e.performAll (lost "gosub")).tick 0).1.services.callStack ≠
              m.before.services.callStack) = true := by
    decide +kernel
  obtain ⟨e, he, hcheck⟩ := (Option.any_eq_true _ _).1 hrun
  obtain ⟨hfails, hcheck⟩ := of_decide_eq_true hcheck
  obtain ⟨m, hm, hcheck⟩ := (Option.any_eq_true _ _).1 hcheck
  exact ⟨_, m, (Reachable.build (eq_ok_of_toOption he)).performAll (lost "gosub"), hfails, hm,
    of_decide_eq_true hcheck⟩

end Playhead.Engine
