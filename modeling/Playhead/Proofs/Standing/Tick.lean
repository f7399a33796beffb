import Playhead.Proofs.Standing.Tracking

/-!
Every move of a tick is tracked by the standing.
-/

namespace Playhead.Playback

variable {env : Env} {p q : Playback}

/-- Playback at a command whose arrival has been taken note of. -/
def entering (p : Playback) : Playback :=
  { p with player := { p.player with arrivedByBranch := false } }

/-- Playback once a command is counted and reported as started. -/
def reported (env : Env) (p : Playback) (spot : Spot) (name : String) : Playback :=
  ((p.withCursor { p.cursor with played := p.cursor.played + 1 }).trackRead env spot).emit
    (.commandExecuted spot name)

theorem reported_eq (env : Env) (p : Playback) (spot : Spot) (name : String) :
    (p.reported env spot name).standing = { p.standing with played := p.cursor.played + 1 } ∧
      (p.reported env spot name).plot = p.plot ++ [.commandExecuted spot name] ∧
      Keeps p (p.reported env spot name) ∧
      ((p.reported env spot name).player.halted = true → p.player.halted = true) := by
  have h := Stays.trackRead env
    (p.withCursor { p.cursor with played := p.cursor.played + 1 }) spot
  refine ⟨h.standing, ?_, ⟨h.backdrop, h.manager, h.active⟩, h.halted⟩
  exact (plot_emit _ _).trans (congrArg (· ++ _) h.plot)

theorem afters_finish (w : Shelf) (s : Standing) (d : Document) (index : Nat)
    (done : Completion) (after : ServiceSet) :
    (s.finish w d index done after).1.filterMap Note.after? =
      [(s.finish w d index done after).2.services] := by
  unfold Standing.finish
  dsimp only
  cases w.follow d index done.flow with
  | error e => rfl
  | ok r =>
    show after :: List.filterMap Note.after? _ = _
    rw [Standing.afters_aftermath]
    rfl

theorem arrived_finish (w : Shelf) (s : Standing) (d : Document) (index : Nat)
    (done : Completion) (after : ServiceSet) :
    (s.finish w d index done after).2.arrived = s.arrives d index done.flow := by
  unfold Standing.finish
  dsimp only
  cases w.follow d index done.flow <;> rfl

theorem afters_complete (w : Shelf) (s : Standing) (d : Document) (index : Nat) (c : Command)
    (h : Handler) :
    (s.complete w d index c h).1.filterMap Note.after? =
      [(s.complete w d index c h).2.services] :=
  afters_finish w s d index _ _

/-- What moving playback has come to, the commands of the host included. No command is in flight if
`idle` holds. -/
structure Reaches (env : Env) (p q : Playback) (g : List ServiceSet) (idle : Prop) : Prop where
  wanders : ∃ l, Wanders env p l q g
  live : Live env q
  rests : idle → q.player.active = none

/-- A completed command is a step of the standing. -/
theorem Makes.wanders {r : List Note × Standing} {eligible : Bool}
    (hm : Makes env p r eligible q) (hn : p.standing.Goes (p.shelf env) r.1 r.2)
    (hr : r.1.filterMap Note.after? = [r.2.services])
    (hl : r.2.index ≠ none → p.standing.Lands (p.shelf env) r.1 r.2)
    (hb : eligible = true → (∀ name, p.standing.Current name → name ∈ Builtin.names) →
      r.2.arrived = false) : Wanders env p r.1 q [q.services] where
  roams := by
    rw [hm.standing]
    exact .one hn
  plot := hm.plot
  afters := by
    rw [hr, List.map_singleton]
    exact congrArg ([·]) (congrArg Standing.services hm.standing)
  shelf := hm.shelf
  scopes := hm.scopes
  scope := hm.scope
  halted := hm.halted
  stack y hy := by
    rcases hm.stack y hy with h | ⟨he, h⟩
    · exact .inl h
    · right
      obtain ⟨d, index, records, -, hi, -⟩ := h.taken
      refine ⟨_, _, [], (List.append_nil _).symm, .one hn, ?_, h, hl (by rw [hi]; simp),
        fun _ hc => hb he hc⟩
      rw [hm.standing]
      exact .refl _

theorem Makes.grounded {r : List Note × Standing} {eligible : Bool}
    (hm : Makes env p r eligible q) (hp : Grounded env p) (hr : r.2.Placed (p.shelf env)) :
    Grounded env q where
  shelf := hm.shelf ▸ hp.shelf
  live := by rw [hm.scopes, hm.scope]; exact hp.live
  forward := hm.forward
  placed := by rw [hm.standing, hm.shelf]; exact hr

theorem Makes.of_stays {r : List Note × Standing} {eligible : Bool} {p₁ : Playback}
    (hm : Makes env p₁ r eligible q) (hplot : p₁.plot = p.plot)
    (hback : p₁.backdrop = p.backdrop) (hmanager : p₁.manager = p.manager)
    (hhalted : p₁.player.halted = true → p.player.halted = true) :
    Makes env p r eligible q where
  standing := hm.standing
  plot := hplot ▸ hm.plot
  shelf := hm.shelf.trans (shelf_of_backdrop env hback)
  scopes := hm.scopes.trans (congrArg Backdrop.scopes hback)
  scope := hm.scope.trans (congrArg Backdrop.scope hback)
  forward := hm.forward
  halted hq := (hm.halted hq).imp_left hhalted
  stack := hmanager ▸ hm.stack

/-- Playback without the command in flight, with the services that it left behind. -/
def released (p : Playback) (s : ServiceSet) : Playback :=
  ({ p with player := { p.player with active := none } } : Playback).withServices s

section

variable {d : Document} {i : Nat} {c : Command} {h : Handler}

/-- The step of the standing in which a command in flight completes. -/
theorem goes_finish (hp : Grounded env p) (hb : p.player.active.isSome = true)
    (hd : p.player.document = some d) (hi : p.cursor.index = some i)
    (hc : d.command? i = some c) (hr : env.source.registry.get? c.name = some h)
    {done : Completion} {s : ServiceSet}
    (ho : c.name ∈ Builtin.names → h.outcome c ⟨d.name, i⟩ p.services = (done, s)) :
    let r := p.standing.finish (p.shelf env) d i done s.story
    p.standing.Goes (p.shelf env) r.1 r.2 := by
  intro r
  by_cases hn : c.name ∈ Builtin.names
  · have hstory := Builtin.outcome_story (hp.shelf.mem_handlers hn hr) c ⟨d.name, i⟩ p.services
    rw [ho hn] at hstory
    have heq : p.standing.complete (p.shelf env) d i c h = r := by
      unfold Standing.complete
      show p.standing.finish _ _ _ (h.outcome _ _ p.services.story).1 _ = _
      rw [show p.standing.services = p.services.story from rfl, hstory]
    have hmove : p.standing.Moves (p.shelf env) _ _ := .complete hd hi hc hb hr
    rw [heq] at hmove
    exact .move hmove
  · exact .finish hd hi hc hb hn done s.story

/-- Completing a command in flight, which ends as its kind of command does if it is a built-in
one. -/
theorem complete_reaches (hp : Grounded env p) (hb : p.player.active.isSome = true)
    (hd : p.player.document = some d) (hi : p.cursor.index = some i)
    (hc : d.command? i = some c) (hr : env.source.registry.get? c.name = some h)
    (hrole : h.role = c.role) (hfresh : p.player.arrivedByBranch = false) {done : Completion}
    {s : ServiceSet}
    (ho : c.name ∈ Builtin.names → h.outcome c ⟨d.name, i⟩ p.services = (done, s))
    {p₁ : Playback} (h₁ : Stays (p.released s) p₁) :
    Reaches env p (p₁.complete env i done h.eligible).1
      [(p₁.complete env i done h.eligible).1.services] True := by
  have hd₁ : p₁.player.document = some d := (congrArg Standing.document h₁.standing).trans hd
  have hforward : p₁.player.fastForward = none :=
    (congrArg Backdrop.fastForward h₁.backdrop).trans hp.forward
  obtain ⟨hm, hactive⟩ := complete_makes env hd₁ h₁.active hforward i done h.eligible
  have hservices : p₁.services.story = s.story := congrArg Standing.services h₁.standing
  have heq : p₁.standing.finish (p₁.shelf env) d i done p₁.services.story =
      p.standing.finish (p.shelf env) d i done s.story := by
    rw [h₁.standing, hservices, shelf_of_backdrop env h₁.backdrop]
    rfl
  rw [heq] at hm
  have hmakes := hm.of_stays (p := p) (h₁.plot.trans rfl) (h₁.backdrop.trans rfl)
    (h₁.manager.trans rfl) h₁.halted
  have hgoes := goes_finish hp hb hd hi hc hr ho
  refine ⟨⟨_, hmakes.wanders hgoes (afters_finish _ _ _ _ _ _)
    (Standing.lands_finish hb _ _ _ _) fun he hcur => ?_⟩, ?_,
    fun _ => hactive⟩
  · -- A built-in command after which a snapshot is taken takes no branch.
    have hn := hcur c.name ⟨hb, d, i, c, hd, hi, hc, rfl⟩
    have hne := Builtin.outcome_flow_ne_branch (hp.shelf.mem_handlers hn hr) he hrole
      ⟨d.name, i⟩ p.services
    rw [ho hn] at hne
    rw [arrived_finish]
    unfold Standing.arrives
    split
    · rename_i taken hflow
      exact absurd hflow (hne taken)
    · exact hfresh
  · have hplaced :=
      Standing.placed_finish hp.shelf p.standing (hp.placed d i hd hi).1 i done s.story
    exact ((hmakes.grounded hp hplaced).sound hactive).toLive

theorem finished_reaches {r : Playback × Except JumpError Unit}
    (hr : Reaches env p r.1 [r.1.services] True) :
    Reaches env p (finished r).1 (steppedAfters (finished r)) ((finished r).2 ≠ .ok false) := by
  obtain ⟨hw, hs, ha⟩ := hr
  obtain ⟨q, result⟩ := r
  cases result with
  | ok u => exact ⟨hw, hs, fun _ => ha trivial⟩
  | error e => exact ⟨hw, hs, fun _ => ha trivial⟩

end

section

variable {a : ActiveCommand} {d : Document} {c : Command} {h : Handler}

theorem stepActive_of_no_document (hd : p.player.document = none) (a : ActiveCommand)
    (delta : Nanoseconds) : p.stepActive env a delta = (p, .ok false) := by
  unfold stepActive
  simp only [hd]

/-- A command in flight that its script no longer has is dropped. -/
theorem stepActive_of_no_command (hd : p.player.document = some d)
    (hc : d.command? a.index = none) (delta : Nanoseconds) :
    p.stepActive env a delta =
      ({ p with player := { p.player with active := none } }, .ok true) := by
  unfold stepActive
  simp only [hd, hc]

theorem stepActive_eq (hd : p.player.document = some d) (hc : d.command? a.index = some c)
    (delta : Nanoseconds) :
    p.stepActive env a delta =
      match a.task.step ⟨c, ⟨d.name, a.index⟩, delta, p.cursor.skipping, false,
          p.scopes.isCancelled p.player.scope⟩ p.services with
      | (.suspended task _, s) =>
        ({ p.withServices s with player := { p.player with
          active := some { a with task := task } } }, .ok false)
      | (.completed done, s) => finished ((p.released s).complete env a.index done a.eligible)
      | (.faulted f, s) =>
        finished (((p.released s).reportFault ⟨d.name, a.index⟩ f.message).complete env a.index
          (.ofFault c.role) a.eligible) := by
  unfold stepActive
  dsimp only
  split
  · rename_i h
    rw [h] at hd
    cases hd
  · rename_i d' h
    rw [h] at hd
    cases hd
    split
    · rename_i h
      rw [h] at hc
      cases hc
    · rename_i c' h
      rw [h] at hc
      cases hc
      rfl

/-- A built-in command in flight goes on without touching the services, or it ends as its kind of
command does. -/
theorem InFlight.steps (hf : InFlight env p a d c h) (hp : Grounded env p)
    (hn : c.name ∈ Builtin.names) (delta : Nanoseconds) :
    let r := a.task.step ⟨c, ⟨d.name, a.index⟩, delta, p.cursor.skipping, false, false⟩ p.services
    (∃ rest why t, r = (.suspended rest why, p.services) ∧ h.begin c = .ok t ∧ t.Underway rest) ∨
      Task.IsLast r.1 ∧
        h.outcome c ⟨d.name, a.index⟩ p.services = (Builtin.completionOf c.role r.1, r.2) := by
  intro r
  obtain ⟨t, hb, ht⟩ := hf.begun hn
  have hhost := (Builtin.starts_of_begin (hp.shelf.mem_handlers hn hf.handler) hb).not_isHost
  rcases Task.step_underway hhost ht ⟨c, ⟨d.name, a.index⟩, delta, p.cursor.skipping, false,
      false⟩ rfl p.services with ⟨rest, why, hstep, hrest⟩ | ⟨hlast, hstep⟩
  · exact .inl ⟨rest, why, t, hstep, hb, hrest⟩
  · exact .inr ⟨hlast, Builtin.outcome_of_last hb hlast hstep⟩

/-- A command in flight that goes on. -/
theorem suspended_reaches (hp : Live env p) (ha : p.player.active = some a)
    (hf : InFlight env p a d c h) (rest : Task) (s : ServiceSet)
    (hs : c.name ∈ Builtin.names →
      s = p.services ∧ ∃ t, h.begin c = .ok t ∧ t.Underway rest) :
    let q : Playback := { p.withServices s with player := { p.player with
      active := some { a with task := rest } } }
    Wanders env p [] q [] ∧ Live env q := by
  intro q
  have hbusy : p.player.active.isSome = true := by rw [ha]; rfl
  have hstanding : q.standing = { p.standing with services := s.story } := by
    show Standing.mk _ _ _ true _ _ = Standing.mk _ _ _ p.player.active.isSome _ _
    rw [hbusy]
    rfl
  have hroams : p.standing.Roams (p.shelf env) [] q.standing := by
    rw [hstanding]
    by_cases hn : c.name ∈ Builtin.names
    · rw [(hs hn).1]
      exact .refl _
    · exact .one (.work hf.document hf.index hf.command hbusy hn s.story)
  refine ⟨⟨hroams, (List.append_nil _).symm, rfl, rfl, rfl, rfl, .inl,
    fun y hy => .inl ⟨y, hy, .refl y⟩⟩, ⟨⟨hp.shelf, hp.live, hp.forward, hp.placed⟩,
    fun b hb => ?_⟩⟩
  cases hb
  exact ⟨d, c, h, hf.document, hf.index, hf.command, hf.handler, hf.role, hf.eligible, hf.fresh,
    fun hn => (hs hn).2⟩

theorem stepActive_reaches (hp : Live env p) (ha : p.player.active = some a)
    (delta : Nanoseconds) :
    Reaches env p (p.stepActive env a delta).1 (steppedAfters (p.stepActive env a delta))
      ((p.stepActive env a delta).2 ≠ .ok false) := by
  obtain ⟨d, c, h, hf⟩ := hp.active a ha
  have hbusy : p.player.active.isSome = true := by rw [ha]; rfl
  have hsteps := fun hn => hf.steps hp.toGrounded hn delta
  rw [stepActive_eq hf.document hf.command, hp.live]
  cases hr : a.task.step ⟨c, ⟨d.name, a.index⟩, delta, p.cursor.skipping, false, false⟩
      p.services with
  | mk r s =>
    rw [hr] at hsteps
    have hcomplete : ∀ {p₁ : Playback}, Stays (p.released s) p₁ → Task.IsLast r →
        Reaches env p (p₁.complete env a.index (Builtin.completionOf c.role r) h.eligible).1
          [(p₁.complete env a.index (Builtin.completionOf c.role r) h.eligible).1.services]
          True := by
      intro p₁ h₁ hlast
      refine complete_reaches hp.toGrounded hbusy hf.document hf.index hf.command hf.handler
        hf.role hf.fresh (fun hn => ?_) h₁
      rcases hsteps hn with ⟨rest, why, t, heq, -⟩ | ⟨-, ho⟩
      · rw [(Prod.mk.inj heq).1] at hlast
        exact absurd hlast id
      · exact ho
    cases r with
    | suspended rest why =>
      obtain ⟨hw, hs⟩ := suspended_reaches hp ha hf rest s fun hn => by
        rcases hsteps hn with ⟨rest', why', t, heq, hb, ht⟩ | ⟨hlast, -⟩
        · obtain ⟨hrest, hs⟩ := Prod.mk.inj heq
          cases hrest
          exact ⟨hs, t, hb, ht⟩
        · exact absurd hlast id
      exact ⟨⟨_, hw⟩, hs, fun hne => absurd rfl hne⟩
    | completed done =>
      rw [hf.eligible]
      exact finished_reaches (hcomplete (.refl _) trivial)
    | faulted f =>
      rw [hf.eligible]
      exact finished_reaches (hcomplete (.reportFault _ ⟨d.name, a.index⟩ f.message) trivial)

end

section

variable {d : Document} {i : Nat} {c : Command} {h : Handler}

/-- Reporting a start and putting the command in flight is a step. -/
theorem start_wanders (env : Env) (ha : p.player.active = none) (hd : p.player.document = some d)
    (hi : p.cursor.index = some i) (hc : d.command? i = some c)
    (he : d.entry i p.player.arrivedByBranch p.services = .run)
    (hr : env.source.registry.get? c.name = some h) (a : ActiveCommand) :
    Wanders env p [.event (.commandExecuted ⟨d.name, i⟩ c.name)]
      { p.entering.reported env ⟨d.name, i⟩ c.name with
        player := { (p.entering.reported env ⟨d.name, i⟩ c.name).player with active := some a } }
      [] := by
  obtain ⟨hs, hplot, hk, hhalted⟩ := reported_eq env p.entering ⟨d.name, i⟩ c.name
  have hbusy : p.player.active.isSome = false := by rw [ha]; rfl
  have hend : ({ p.entering.reported env ⟨d.name, i⟩ c.name with
      player := { (p.entering.reported env ⟨d.name, i⟩ c.name).player with
        active := some a } } : Playback).standing = (p.standing.start d i c).2 :=
    congrArg (fun s : Standing => { s with busy := true }) hs
  refine ⟨?_, hplot, rfl, shelf_of_backdrop env hk.backdrop,
    congrArg Backdrop.scopes hk.backdrop, congrArg Backdrop.scope hk.backdrop,
    fun hq => .inl (hhalted hq), fun y hy => .inl ⟨y, hk.manager ▸ hy, .refl y⟩⟩
  rw [hend]
  exact .one (.move (.start hd hi hc hbusy he hr))

/-- The result of a start that completed its command. -/
def passed (r : Playback × Except JumpError Unit) : Playback × Except JumpError Begin :=
  match r with
  | (p, .ok ()) => (p, .ok .completed)
  | (p, .error e) => (p, .error e)

theorem fst_passed (r : Playback × Except JumpError Unit) : (passed r).1 = r.1 := by
  obtain ⟨q, e | u⟩ := r <;> rfl

theorem eq_error_of_passed {r : Playback × Except JumpError Unit} {e : JumpError}
    (h : (passed r).2 = .error e) : r.2 = .error e := by
  obtain ⟨q, e | u⟩ := r <;> cases h
  rfl

theorem snd_passed_ne (r : Playback × Except JumpError Unit) :
    (passed r).2 ≠ .ok .idle ∧ (passed r).2 ≠ .ok .started := by
  obtain ⟨q, e | u⟩ := r <;> exact ⟨nofun, nofun⟩

theorem begin_eq (env : Env) (p : Playback) (d : Document) (i : Nat) (c : Command) (h : Handler) :
    p.begin env d i c h =
      match h.begin c with
      | .ok task =>
        ({ p.reported env ⟨d.name, i⟩ c.name with player := {
            (p.reported env ⟨d.name, i⟩ c.name).player with
          active := some ⟨i, task, h.eligible⟩ } }, .ok .started)
      | .error f =>
        passed (((p.reported env ⟨d.name, i⟩ c.name).reportFault ⟨d.name, i⟩ f.message).complete
          env i (.ofFault c.role) h.eligible) := rfl

theorem passed_reaches {r : Playback × Except JumpError Unit}
    (hr : Reaches env p r.1 [r.1.services] True) :
    Reaches env p (passed r).1 (begunAfters (passed r)) ((passed r).2 ≠ .ok .started) := by
  obtain ⟨hw, hs, ha⟩ := hr
  obtain ⟨q, result⟩ := r
  cases result with
  | ok u => exact ⟨hw, hs, fun _ => ha trivial⟩
  | error e => exact ⟨hw, hs, fun _ => ha trivial⟩

/-- What a move reaches after steps that were made before it. -/
theorem Wanders.reaches {r : Playback} {l : List Note} {g g' : List ServiceSet} {idle : Prop}
    (h : Wanders env p l q g) (h' : Reaches env q r g' idle) : Reaches env p r (g ++ g') idle := by
  obtain ⟨⟨m, hm⟩, hs, ha⟩ := h'
  exact ⟨⟨l ++ m, h.trans hm⟩, hs, ha⟩

/-- Starting a command. -/
theorem begin_reaches (hp : Grounded env p) (ha : p.player.active = none)
    (hd : p.player.document = some d) (hi : p.cursor.index = some i)
    (hc : d.command? i = some c) (he : d.entry i p.player.arrivedByBranch p.services = .run)
    (hr : env.source.registry.get? c.name = some h) (hrole : h.role = c.role) :
    Reaches env p (p.entering.begin env d i c h).1 (begunAfters (p.entering.begin env d i c h))
      ((p.entering.begin env d i c h).2 ≠ .ok .started) := by
  have hstart := start_wanders env ha hd hi hc he hr
  obtain ⟨hs, -, hk, -⟩ := reported_eq env p.entering ⟨d.name, i⟩ c.name
  rw [begin_eq]
  obtain ⟨q, hq⟩ : ∃ q : Playback, q = p.entering.reported env ⟨d.name, i⟩ c.name := ⟨_, rfl⟩
  rw [← hq] at hstart hs hk ⊢
  have hqd : q.player.document = some d := (congrArg Standing.document hs).trans hd
  have hqi : q.cursor.index = some i := (congrArg Standing.index hs).trans hi
  have hqa : q.player.arrivedByBranch = false := congrArg Standing.arrived hs
  have hgrounded : ∀ a : ActiveCommand,
      Grounded env { q with player := { q.player with active := some a } } := by
    intro a
    refine ⟨(hstart a).shelf ▸ hp.shelf, ?_, ?_, ?_⟩
    · exact (congrArg (fun b : Backdrop => b.scopes.isCancelled b.scope) hk.backdrop).trans hp.live
    · exact (congrArg Backdrop.fastForward hk.backdrop).trans hp.forward
    · rw [(hstart a).shelf]
      intro d' i' hd' hi'
      exact hp.placed d' i' ((congrArg Standing.document hs).symm.trans hd')
        ((congrArg Standing.index hs).symm.trans hi')
  cases hb : h.begin c with
  | ok t =>
    refine ⟨⟨_, hstart ⟨i, t, h.eligible⟩⟩, ⟨hgrounded _, fun a ha' => ?_⟩,
      fun hne => absurd rfl hne⟩
    cases ha'
    exact ⟨d, c, h, hqd, hqi, hc, hr, hrole, rfl, hqa, fun _ => ⟨t, hb, .inl rfl⟩⟩
  | error f =>
    -- A command that faults as it is begun is started and completes in one.
    have hreleased : ({ q with player := { q.player with active := some ⟨i, .stop, false⟩ } } :
        Playback).released q.services = q := by
      have hnone : q.player.active = none := hk.active.trans ha
      show ({ q with player := { q.player with active := none } } : Playback) = q
      rw [← hnone]
    have hstays : Stays (({ q with player := { q.player with
        active := some ⟨i, .stop, false⟩ } } : Playback).released q.services)
        (q.reportFault ⟨d.name, i⟩ f.message) := by
      rw [hreleased]
      exact .reportFault q ⟨d.name, i⟩ f.message
    have ho : c.name ∈ Builtin.names →
        h.outcome c ⟨d.name, i⟩ q.services = (.ofFault c.role, q.services) := by
      intro _
      unfold Handler.outcome
      rw [hb]
    have hcomplete :=
      complete_reaches (hgrounded ⟨i, .stop, false⟩) rfl hqd hqi hc hr hrole hqa ho hstays
    exact (hstart ⟨i, .stop, false⟩).reaches (passed_reaches hcomplete)

theorem entry_skip_lt {registry : Registry} (hd : d.Staged registry) {arrived : Bool}
    {s : ServiceSet} {next : Nat} (h : d.entry i arrived s = .skip next) : i < next := by
  unfold Document.entry at h
  split at h
  · cases h
  · split at h
    · split at h
      · cases h
      · cases h
        exact Nat.lt_succ_self i
    all_goals
      first
      | cases h
      | split at h
        · cases h
        · cases h
          cases hb : d.block? i with
          | none => exact Nat.lt_succ_self i
          | some link => exact (hd.forward i link hb).2

/-- Leaving a command out is a step, unless it leads past the end. -/
theorem pass_reaches (hp : Grounded env p) (ha : p.player.active = none)
    (hd : p.player.document = some d) (hi : p.cursor.index = some i)
    (hc : d.command? i = some c) {next : Nat}
    (he : d.entry i p.player.arrivedByBranch p.services = .skip next) :
    let q := p.entering.withCursor { p.cursor with index := some next }
    if next < d.size then Wanders env p [] q [] ∧ Grounded env q
    else Wanders env p [.event (.stopped .endOfScript)] (q.endOfScript .endOfScript) [] ∧
      Grounded env (q.endOfScript .endOfScript) := by
  intro q
  have hbusy : p.player.active.isSome = false := by rw [ha]; rfl
  have hmoves : p.standing.Moves (p.shelf env) (p.standing.pass d next).1
      (p.standing.pass d next).2 := .pass hd hi hc hbusy (.inl he)
  have hplaced := hp.placed d i hd hi
  split
  · rename_i hlt
    have hstanding : (p.standing.pass d next).2 = q.standing := by
      unfold Standing.pass Standing.moveTo
      rw [if_pos hlt, if_pos hlt, ← hd]
      rfl
    have hnotes : (p.standing.pass d next).1 = [] := if_pos hlt
    refine ⟨⟨?_, (List.append_nil _).symm, rfl, rfl, rfl, rfl, .inl,
      fun y hy => .inl ⟨y, hy, .refl y⟩⟩, hp.shelf, hp.live, hp.forward, ?_⟩
    · rw [← hstanding, ← hnotes]
      exact .one (.move hmoves)
    · rw [← hstanding]
      exact Standing.placed_moveTo _ hplaced.1 _
  · rename_i hge
    have hstanding : (p.standing.pass d next).2 = (q.endOfScript .endOfScript).standing := by
      unfold Standing.pass Standing.moveTo
      rw [if_neg hge, if_neg hge, ← hd]
      rfl
    have hnotes : (p.standing.pass d next).1 = [.event (.stopped .endOfScript)] := if_neg hge
    refine ⟨⟨?_, plot_emit _ _, rfl, rfl, rfl, rfl, .inl,
      fun y hy => .inl ⟨y, hy, .refl y⟩⟩, hp.shelf, hp.live, hp.forward, ?_⟩
    · rw [← hstanding, ← hnotes]
      exact .one (.move hmoves)
    · intro d' i' _ hi'
      cases hi'

theorem beginWithin_end {n : Nat} (hn : 0 < n) (hd : p.player.document = some d)
    (hi : p.cursor.index = some i) (hge : d.size ≤ i) :
    p.beginWithin env n = (p.endOfScript .endOfScript, .ok .idle) := by
  obtain ⟨m, rfl⟩ := Nat.exists_eq_add_one.2 hn
  have hc : d.command? i = none := Array.getElem?_eq_none hge
  simp only [beginWithin, hi, hd, hc]

theorem checkForward_of_none (h : p.player.fastForward = none) (d : Document) (i : Nat) :
    (p.checkForward d i).2 = false := by
  unfold checkForward
  rw [h]

theorem checkForward_eq (h : (p.checkForward d i).2 = false) : p.checkForward d i = (p, false) := by
  unfold checkForward at h ⊢
  split
  · rfl
  · rename_i f hf
    rw [hf] at h
    dsimp only at h ⊢
    split
    · rename_i hend
      rw [if_pos hend] at h
      cases h
    · rfl

/-- A search that has not reached the point that playback runs to starts the command at the cursor
or goes on behind it. -/
theorem beginWithin_eq {n : Nat} (hf : (p.checkForward d i).2 = false)
    (hd : p.player.document = some d) (hi : p.cursor.index = some i)
    (hc : d.command? i = some c) (hr : env.source.registry.get? c.name = some h) :
    p.beginWithin env (n + 1) =
      match d.entry i p.player.arrivedByBranch p.services with
      | .skip next =>
        beginWithin env n (p.entering.withCursor { p.cursor with index := some next })
      | .run => p.entering.begin env d i c h := by
  rw [beginWithin]
  split
  · rename_i index d' hi' hd'
    rw [hd] at hd'
    rw [hi] at hi'
    cases hd'
    cases hi'
    rw [hc]
    dsimp only
    rw [checkForward_eq hf]
    dsimp only
    rw [hr]
    rfl
  · rename_i hne
    exact absurd hd (hne i d hi)

/-- A search ends at the point that playback runs to. -/
theorem beginWithin_reached {n : Nat} (hf : (p.checkForward d i).2 = true)
    (hd : p.player.document = some d) (hi : p.cursor.index = some i)
    (hc : d.command? i = some c) :
    p.beginWithin env (n + 1) = ((p.checkForward d i).1, .ok .idle) := by
  have hpair : p.checkForward d i = ((p.checkForward d i).1, true) := by rw [← hf]
  rw [beginWithin]
  simp only [hd, hi, hc]
  rw [hpair]

theorem beginWithin_over (n : Nat) (h : p.player.document = none ∨ p.cursor.index = none) :
    p.beginWithin env n = (p, .ok .idle) := by
  cases n with
  | zero => rfl
  | succ n =>
    rw [beginWithin]
    split
    · rename_i hi hd
      rw [hd, hi] at h
      rcases h with h | h <;> cases h
    · rfl

/-- Grounded playback with nothing in flight, at a command that is to be started. -/
structure Facing (env : Env) (p : Playback) (d : Document) (i : Nat) (c : Command) (h : Handler) :
    Prop where
  grounded : Grounded env p
  idle : p.player.active = none
  document : p.player.document = some d
  index : p.cursor.index = some i
  command : d.command? i = some c
  handler : env.source.registry.get? c.name = some h
  role : h.role = c.role
  entry : d.entry i p.player.arrivedByBranch p.services = .run

section

variable {M : Playback → Playback × Except JumpError Begin → Prop}
  (runs : ∀ {p d i c h}, Facing env p d i c h → M p (p.entering.begin env d i c h))
  (skips : ∀ {p q r}, Wanders env p [] q [] → M q r → M p r)
  (leaves : ∀ {p q}, Wanders env p [.event (.stopped .endOfScript)] q [] → Grounded env q →
    q.player.active = none → q.cursor.index = none → M p (q, .ok .idle))

include runs skips leaves

/-- What holds of a command that is started and of the end of a script, and holds before a command
that is left out if it holds behind it, holds of the search for the next command to start. -/
theorem beginWithin_induct (n : Nat) (hp : Grounded env p) (ha : p.player.active = none)
    (hd : p.player.document = some d) (hi : p.cursor.index = some i) (hn : d.size - i < n) :
    M p (p.beginWithin env n) := by
  induction n generalizing p i with
  | zero => cases hn
  | succ n ih =>
    obtain ⟨hshelf, hlt⟩ := hp.placed d i hd hi
    obtain ⟨c, hc⟩ : ∃ c, d.command? i = some c := ⟨_, Array.getElem?_eq_getElem hlt⟩
    have hstaged := (hp.shelf.staged _ _ hshelf).2
    obtain ⟨h, hr, -, hrole⟩ := hstaged.handler hc
    rw [beginWithin_eq (checkForward_of_none hp.forward d i) hd hi hc hr]
    cases he : d.entry i p.player.arrivedByBranch p.services with
    | run => exact runs ⟨hp, ha, hd, hi, hc, hr, hrole, he⟩
    | skip next =>
      have hnext := entry_skip_lt hstaged he
      have hpass := pass_reaches hp ha hd hi hc he
      obtain ⟨q, hq⟩ : ∃ q : Playback,
          q = p.entering.withCursor { p.cursor with index := some next } := ⟨_, rfl⟩
      have hqd : q.player.document = some d := by rw [hq]; exact hd
      have hqi : q.cursor.index = some next := by rw [hq]; rfl
      have hqa : q.player.active = none := by rw [hq]; exact ha
      dsimp only at hpass ⊢
      rw [← hq] at hpass ⊢
      by_cases hsize : next < d.size
      · rw [if_pos hsize] at hpass
        exact skips hpass.1 (ih hpass.2 hqa hqd hqi (by omega))
      · rw [if_neg hsize] at hpass
        rw [beginWithin_end (by omega) hqd hqi (Nat.le_of_not_lt hsize)]
        exact leaves hpass.1 hpass.2 hqa rfl

theorem beginNext_induct (hp : Grounded env p) (ha : p.player.active = none)
    (rests : p.player.document = none ∨ p.cursor.index = none → M p (p, .ok .idle)) :
    M p (p.beginNext env) := by
  unfold beginNext
  by_cases h : p.player.document = none ∨ p.cursor.index = none
  · rw [beginWithin_over _ h]
    exact rests h
  · obtain ⟨d, hd⟩ := Option.ne_none_iff_exists'.1 fun hd => h (.inl hd)
    obtain ⟨i, hi⟩ := Option.ne_none_iff_exists'.1 fun hi => h (.inr hi)
    rw [hd]
    exact beginWithin_induct runs skips leaves _ hp ha hd hi
      (Nat.lt_succ_of_le (Nat.sub_le _ _))

end

/-- Starting the next command: those that are left out before it are steps of their own. -/
theorem beginNext_reaches (hp : Grounded env p) (ha : p.player.active = none) :
    Reaches env p (p.beginNext env).1 (begunAfters (p.beginNext env))
      ((p.beginNext env).2 ≠ .ok .started) := by
  refine beginNext_induct
    (M := fun p r => Reaches env p r.1 (begunAfters r) (r.2 ≠ .ok .started))
    (fun hf => ?_) (fun hw hr => hw.reaches hr) (fun hw hq hidle _ => ?_) hp ha fun _ => ?_
  · exact begin_reaches hf.grounded hf.idle hf.document hf.index hf.command hf.entry hf.handler
      hf.role
  · exact ⟨⟨_, hw⟩, (hq.sound hidle).toLive, fun _ => hidle⟩
  · exact ⟨⟨[], .of_stays (.refl p)⟩, (hp.sound ha).toLive, fun _ => ha⟩

end

/-- What two moves reach, one after the other. -/
theorem Reaches.trans {r : Playback} {g g' : List ServiceSet} {idle idle' : Prop}
    (h : Reaches env p q g idle)
    (hr : Live env q → (idle → q.player.active = none) → Reaches env q r g' idle') :
    Reaches env p r (g ++ g') idle' := by
  obtain ⟨⟨l, hl⟩, hs, ha⟩ := h
  exact hl.reaches (hr hs ha)

theorem Live.reaches (hp : Live env p) : Reaches env p p [] False :=
  ⟨⟨[], .of_stays (.refl p)⟩, hp, False.elim⟩

/-- Stepping the command in flight and then running on. -/
theorem step_run_reaches {n : Nat} (hrun : ∀ r, Live env r → r.player.active = none →
      Reaches env r (run env n 0 r).1 (runAfters env n 0 r) False)
    (hp : Live env p) {a : ActiveCommand} (ha : p.player.active = some a) (delta : Nanoseconds) :
    Reaches env p
      (match p.stepActive env a delta with
        | (p, .error e) => (p, (.error e : Except JumpError Unit))
        | (p, .ok false) => (p, .ok ())
        | (p, .ok true) => run env n 0 p).1
      (steppedAfters (p.stepActive env a delta) ++
        match p.stepActive env a delta with
        | (p, .ok true) => runAfters env n 0 p
        | _ => []) False := by
  have hs := stepActive_reaches hp ha delta
  cases hr : p.stepActive env a delta with
  | mk r result =>
    rw [hr] at hs
    cases result with
    | error e => exact hs.trans fun hq _ => hq.reaches
    | ok done =>
      cases done with
      | false => exact hs.trans fun hq _ => hq.reaches
      | true => exact hs.trans fun hq hidle => hrun r hq (hidle (by simp))

theorem run_reaches (n : Nat) (delta : Nanoseconds) (hp : Live env p)
    (ha : p.player.active = none) :
    Reaches env p (p.run env n delta).1 (runAfters env n delta p) False := by
  induction n generalizing p delta with
  | zero => exact hp.reaches
  | succ n ih =>
    unfold run runAfters
    split
    · exact hp.reaches
    · have hb := beginNext_reaches hp.toGrounded ha
      dsimp only
      cases hr : p.beginNext env with
      | mk q result =>
        rw [hr] at hb
        cases result with
        | error e => exact hb.trans fun hq _ => hq.reaches
        | ok outcome =>
          cases outcome with
          | idle => exact hb.trans fun hq _ => hq.reaches
          | completed => exact hb.trans fun hq hidle => ih delta hq (hidle (by simp))
          | started =>
            refine hb.trans fun hq _ => ?_
            dsimp only
            cases hactive : q.player.active with
            | none => exact hq.reaches
            | some a => exact step_run_reaches (fun r hr har => ih 0 hr har) hq hactive delta

theorem Live.not_isStray (hp : Live env p) {a : ActiveCommand} (ha : p.player.active = some a) :
    p.isStray a = false := by
  obtain ⟨d, c, h, hf⟩ := hp.active a ha
  unfold isStray
  rw [hf.document]
  dsimp only
  rw [hf.command]
  rfl

theorem advance_reaches (hp : Live env p) (delta : Nanoseconds) :
    Reaches env p (p.advance env delta).1 (p.advanceAfters env delta) False := by
  unfold advance advanceAfters
  cases ha : p.player.active with
  | none => exact run_reaches _ delta hp ha
  | some a =>
    dsimp only
    rw [hp.not_isStray ha]
    exact step_run_reaches (fun r hr har => run_reaches _ 0 hr har) hp ha delta

theorem Live.stays (hp : Live env p) (h : Stays p q) : Live env q where
  shelf := by rw [shelf_of_backdrop env h.backdrop]; exact hp.shelf
  live := (congrArg (fun b : Backdrop => b.scopes.isCancelled b.scope) h.backdrop).trans hp.live
  forward := (congrArg Backdrop.fastForward h.backdrop).trans hp.forward
  placed := by rw [h.standing, shelf_of_backdrop env h.backdrop]; exact hp.placed
  active a ha := by
    rw [h.active] at ha
    obtain ⟨d, c, k, hf⟩ := hp.active a ha
    exact ⟨d, c, k, hf.congr (congrArg Standing.document h.standing)
      (congrArg Standing.index h.standing) (congrArg Standing.arrived h.standing)⟩

theorem Sound.stays (hp : Sound env p) (h : Stays p q) : Sound env q where
  toLive := hp.toLive.stays h
  builtin := by rw [h.standing]; exact hp.builtin

/-- A tick goes from one standing to another. -/
theorem tick_reaches (hp : Live env p) (delta : Nanoseconds) :
    Reaches env p (p.tick env delta).1 (p.tickAfters env delta) False := by
  unfold tick tickAfters
  rw [hp.live]
  split
  · exact hp.reaches
  · simp only [Bool.false_eq_true, if_false]
    split
    · have hw := Stays.leaveWait env p delta
      cases hr : p.leaveWait env delta with
      | mk q go =>
        rw [hr] at hw
        have hq : Reaches env p q [] False := ⟨⟨[], .of_stays hw⟩, hp.stays hw, False.elim⟩
        cases go with
        | false => exact hq
        | true => exact hq.trans fun hq _ => advance_reaches hq delta
    · exact advance_reaches hp delta

/-- Playback of built-in commands goes along its standings until one of the host is started. -/
theorem Reaches.tracked {g : List ServiceSet} {idle : Prop} (h : Reaches env p q g idle)
    (hp : Sound env p) : Tracked env p q g idle := by
  obtain ⟨⟨l, hl⟩, hq, ha⟩ := h
  exact hl.tracked hq hp.builtin ha

end Playhead.Playback
