import Playhead.Proofs.Motion.Moves

/-!
What a step of playback does: at most one command is started, stepped or dropped; then playback goes
on, which leaves the services and starts none.
-/

namespace Playhead.Playback

/-- How playback goes on once a command was started, stepped or dropped: the services stay, no start
is reported, skip is not turned on, and what is captured is captured of these services. -/
structure Sequel (p q : Playback) : Prop where
  services : q.services = p.services
  events : ∃ told, q.scene.events = p.scene.events ++ told ∧
    ∀ spot name, .commandExecuted spot name ∉ told
  skipping : q.cursor.skipping = true → p.cursor.skipping = true
  snapshots : ∀ y ∈ q.manager.stack.snapshots,
    (∃ x ∈ p.manager.stack.snapshots, x.Alike y) ∨
      StateMap.collect p.services .game = .ok y.records

variable {env : Env} {p q r : Playback} {d : Document} {a : ActiveCommand}

namespace Sequel

theorem of_frame (hs : q.scene = p.scene) (hk : q.manager.stack = p.manager.stack)
    (hc : q.cursor.skipping = true → p.cursor.skipping = true) : Sequel p q :=
  ⟨congrArg Scene.services hs, ⟨[], by rw [hs, List.append_nil], fun _ _ => List.not_mem_nil⟩, hc,
    fun y hy => .inl ⟨y, hk ▸ hy, .refl y⟩⟩

theorem refl (p : Playback) : Sequel p p :=
  .of_frame rfl rfl id

theorem trans (h : Sequel p q) (h' : Sequel q r) : Sequel p r := by
  obtain ⟨told, hq, hnone⟩ := h.events
  obtain ⟨told', hr, hnone'⟩ := h'.events
  refine ⟨h'.services.trans h.services, ⟨told ++ told', ?_, fun spot name hmem => ?_⟩,
    fun hon => h.skipping (h'.skipping hon), fun z hz => ?_⟩
  · rw [hr, hq, List.append_assoc]
  · rcases List.mem_append.1 hmem with hmem | hmem
    · exact hnone spot name hmem
    · exact hnone' spot name hmem
  · rcases h'.snapshots z hz with ⟨y, hy, hyz⟩ | hnew
    · rcases h.snapshots y hy with ⟨x, hx, hxy⟩ | hnew
      · exact .inl ⟨x, hx, hxy.trans hyz⟩
      · unfold Snapshot.Alike at hyz
        rw [hyz]
        exact .inr hnew
    · exact .inr (h.services ▸ hnew)

theorem emit (p : Playback) {e : Event} (he : ∀ spot name, e ≠ .commandExecuted spot name) :
    Sequel p (p.emit e) := by
  refine ⟨rfl, ⟨[e], p.scene.events_emit e, fun spot name hmem => ?_⟩, id,
    fun y hy => .inl ⟨y, hy, .refl y⟩⟩
  exact he spot name (List.mem_singleton.1 hmem).symm

theorem reportFault (p : Playback) (spot : Spot) (message : String) :
    Sequel p (p.reportFault spot message) :=
  .emit p nofun

theorem stopSkip (p : Playback) : Sequel p (p.setSkip false) := by
  unfold Playback.setSkip
  split
  · exact .refl p
  · exact Sequel.trans (q := p.withCursor { p.cursor with skipping := false })
      (.of_frame rfl rfl nofun) (.emit _ nofun)

theorem endOfScript (p : Playback) (reason : StopReason) : Sequel p (p.endOfScript reason) :=
  Sequel.trans (q := p.withCursor { p.cursor with index := none, waiting := false })
    (.of_frame rfl rfl id) (.emit _ nofun)

theorem enterWait (p : Playback) : Sequel p p.enterWait := by
  obtain ⟨q, hq⟩ : ∃ q : Playback, q = { p with player := { p.player with
      cursor := { p.cursor with waiting := true }, waitElapsed := 0 } } := ⟨_, rfl⟩
  have hsame : Sequel p q := hq ▸ .of_frame rfl rfl id
  unfold Playback.enterWait
  dsimp only
  rw [← hq]
  exact hsame.trans (.emit q nofun)

theorem presentChoices (p : Playback) : Sequel p p.presentChoices := by
  unfold Playback.presentChoices
  dsimp only
  split
  · exact ((Sequel.stopSkip p).trans (.enterWait _)).trans (.emit _ nofun)
  · exact (Sequel.enterWait p).trans (.emit _ nofun)

theorem settle (p : Playback) (c : Completion) (adds : Bool) : Sequel p (p.settle c adds) := by
  unfold Playback.settle
  split
  · exact .refl p
  · split
    · exact Sequel.trans (q := { p with player := { p.player with halted := true } })
        (.of_frame rfl rfl id) (.emit _ nofun)
    · split
      · exact .presentChoices p
      · split
        · exact .enterWait p
        · exact .refl p

theorem enterScript (p : Playback) (d : Document) : Sequel p (p.enterScript d) := by
  unfold Playback.enterScript
  split
  · exact .refl p
  · exact .emit p nofun

theorem moveTo (p : Playback) (d : Document) (i : Nat) (atEnd : StopReason) :
    Sequel p (p.moveTo d i atEnd) := by
  have henter := Sequel.enterScript p d
  unfold Playback.moveTo
  generalize p.enterScript d = u at henter ⊢
  obtain ⟨v, hv⟩ : ∃ v : Playback, v = { u with player := { u.player with
      cursor := { u.cursor with script := d.name, revision := d.revision, waiting := false }
      document := some d } } := ⟨_, rfl⟩
  have hsame : Sequel p v := henter.trans (hv ▸ .of_frame rfl rfl id)
  dsimp only
  rw [← hv]
  split
  · exact hsame.trans (.endOfScript v atEnd)
  · exact hsame.trans (.of_frame rfl rfl id)

theorem lockNewest (p : Playback) (allow : Bool) : Sequel p (p.lockNewest allow) := by
  obtain ⟨m, hm, hold⟩ := lockNewest_eq p allow
  rw [hm]
  exact ⟨rfl, ⟨[], (List.append_nil _).symm, fun _ _ => List.not_mem_nil⟩, id,
    fun y hy => .inl (hold y hy)⟩

theorem capture (p : Playback) (d : Document) (next : Nat) (c : Completion) :
    Sequel p (p.capture d next c) := by
  unfold Playback.capture StateManager.capture
  cases hr : StateMap.collect p.services .game with
  | error e => exact .refl p
  | ok records =>
    dsimp only
    obtain ⟨x, hx⟩ : ∃ x : Snapshot, x = { Snapshot.make ⟨d.name, next⟩ d.revision
        p.cursor.played records with
        waiting := c.waitForInput, allowed := c.allowRollback && c.waitForInput } := ⟨_, rfl⟩
    rw [← hx]
    have hmem := fun y hy => RollbackStack.mem_push (s := p.manager.stack) (x := x) (y := y) hy
    generalize p.manager.stack.push x = pushed at hmem ⊢
    obtain ⟨stack, evicted⟩ := pushed
    have hpush : Sequel p { p with manager := { p.manager with stack := stack } } := by
      refine ⟨rfl, ⟨[], (List.append_nil _).symm, fun _ _ => List.not_mem_nil⟩, id, fun y hy => ?_⟩
      rcases hmem y hy with hold | rfl
      · exact .inl ⟨y, hold, .refl y⟩
      · rw [hr, hx]
        exact .inr rfl
    cases evicted with
    | none => exact hpush
    | some x => exact hpush.trans (.emit _ nofun)

theorem stop (ha : p.player.active = none) (reason : StopReason) : Sequel p (p.stop reason) := by
  rw [stop_of_idle ha]
  refine Sequel.trans (q := { p with player := { p.player with
    cursor := { p.cursor with index := none, waiting := false }
    halted := false
    fastForward := none } }) (.of_frame rfl rfl id) (.emit _ nofun)

theorem complete (env : Env) (ha : p.player.active = none) (index : Nat) (c : Completion)
    (eligible : Bool) : Sequel p (p.complete env index c eligible).1 := by
  unfold Playback.complete
  cases hd : p.player.document with
  | none => exact .refl p
  | some d =>
    obtain ⟨k, hk, -⟩ := follow_eq env hd index c.flow
    obtain ⟨q, hq⟩ : ∃ q : Playback, q = { p with
        library := k
        player := { p.player with arrivedByBranch := p.standing.arrives d index c.flow } } :=
      ⟨_, rfl⟩
    have hsame : Sequel p q := hq ▸ .of_frame rfl rfl id
    have hidle : q.player.active = none := by
      rw [hq]
      exact ha
    dsimp only
    rw [hk, ← hq]
    cases (p.shelf env).follow d index c.flow with
    | error e => exact hsame.trans (.stop hidle _)
    | ok place =>
      obtain ⟨next, i⟩ := place
      have hlock := hsame.trans (.lockNewest q c.allowRollback)
      dsimp only
      split
      · exact ((hlock.trans (.capture _ next i c)).trans (.moveTo _ next i _)).trans (.settle _ _ _)
      · exact (hlock.trans (.moveTo _ next i _)).trans (.settle _ _ _)

end Sequel

/-- All that a step of playback can do before it goes on. -/
inductive Deed (env : Env) (p q : Playback) : Prop where
  | rests (h : Sequel p q)
  | drops {a : ActiveCommand} (ha : p.player.active = some a)
    (h : Sequel (p.withServices (a.task.cancel p.services)) q)
  | starts {d : Document} {i : Nat} {c : Command} (hd : p.player.document = some d)
    (hi : p.cursor.index = some i) (hc : d.command? i = some c)
    (h : Sequel (p.entering.reported env ⟨d.name, i⟩ c.name) q)
  | works {d : Document} {a : ActiveCommand} {c : Command} (delta : Nanoseconds)
    (hd : p.player.document = some d) (ha : p.player.active = some a)
    (hc : d.command? a.index = some c)
    (h : Sequel (p.withServices (a.task.step ⟨c, ⟨d.name, a.index⟩, delta, p.cursor.skipping, false,
      p.scopes.isCancelled p.player.scope⟩ p.services).2) q)

theorem sequel_passTo (p : Playback) (d : Document) (next : Nat) : Sequel p (p.passTo d next) := by
  unfold passTo
  dsimp only
  split
  · exact .of_frame rfl rfl id
  · exact Sequel.trans (q := p.entering.withCursor { p.cursor with index := some next })
      (.of_frame rfl rfl id) (.endOfScript _ _)

theorem sequel_reach (p : Playback) : Sequel p p.reach.1 := by
  unfold Playback.reach checkForward
  split
  · split
    · exact .refl p
    · split
      · exact .of_frame rfl rfl id
      · exact .refl p
  · exact .refl p

theorem sequel_leaveWait (env : Env) (p : Playback) (delta : Nanoseconds) :
    Sequel p (p.leaveWait env delta).1 := by
  obtain ⟨t, h⟩ | ⟨t, h⟩ := leaveWait_cases env p delta <;> rw [h] <;> exact .of_frame rfl rfl id

theorem sequel_continueInput (p : Playback) : Sequel p p.continueInput := by
  unfold continueInput
  split
  · exact .refl p
  · exact .of_frame rfl rfl id

/-- A command that is started, or faults at its start, is reported first. -/
theorem sequel_begin (env : Env) (ha : p.player.active = none) (d : Document) (i : Nat)
    (c : Command) (h : Handler) :
    Sequel (p.reported env ⟨d.name, i⟩ c.name) (p.begin env d i c h).1 := by
  have hidle : (p.reported env ⟨d.name, i⟩ c.name).player.active = none :=
    (reported_eq env p ⟨d.name, i⟩ c.name).2.2.1.active.trans ha
  rw [begin_eq]
  generalize p.reported env ⟨d.name, i⟩ c.name = q at hidle ⊢
  cases h.begin c with
  | ok task => exact .of_frame rfl rfl id
  | error f =>
    dsimp only
    rw [fst_passed]
    exact (Sequel.reportFault q ⟨d.name, i⟩ f.message).trans
      (.complete (p := q.reportFault _ _) env hidle i _ _)

/-- What an interruption does once nothing is in flight. -/
theorem sequel_halt (p : Playback) : Sequel p ({ p.renewScope with player := {
    p.renewScope.player with halted := true } }.emit (.stopped .cancelled)) :=
  Sequel.trans (q := { p.renewScope with player := { p.renewScope.player with halted := true } })
    (.of_frame rfl rfl id) (.emit _ nofun)

theorem deed_interrupt (p : Playback) : Deed env p p.interrupt := by
  cases ha : p.player.active with
  | none =>
    refine .rests ?_
    unfold interrupt
    rw [cancelActive_of_idle ha]
    exact sequel_halt p
  | some a =>
    refine .drops ha ?_
    unfold interrupt cancelActive
    rw [ha]
    exact Sequel.trans (q := { p.withServices (a.task.cancel p.services) with
      player := { p.player with active := none } }) (.of_frame rfl rfl id) (sequel_halt _)

theorem deed_arrive (ha : p.player.active = none) : Deed env p (p.arrive env) := by
  unfold Playback.arrive
  split
  · rename_i i d hi hd
    split
    · exact .rests (sequel_passTo p d _)
    · split
      · rename_i c h hc
        obtain ⟨c', hc', hmap⟩ := Option.bind_eq_some_iff.1 hc
        obtain ⟨h', -, heq⟩ := Option.map_eq_some_iff.1 hmap
        cases heq
        exact .starts hd hi hc' (sequel_begin (p := p.entering) env ha d i c h)
      · exact .rests (.refl p)
  · exact .rests (.refl p)

/-- What is left of a command's step once the services are as its task left them. -/
theorem sequel_work {c : Command} (hd : p.player.document = some d)
    (hc : d.command? a.index = some c) (delta : Nanoseconds) :
    Sequel (p.withServices (a.task.step ⟨c, ⟨d.name, a.index⟩, delta, p.cursor.skipping, false,
      p.scopes.isCancelled p.player.scope⟩ p.services).2) (p.stepActive env a delta).1 := by
  rw [stepActive_eq hd hc]
  generalize a.task.step _ p.services = r
  obtain ⟨progress, s⟩ := r
  have hreleased : Sequel (p.withServices s) (p.released s) := .of_frame rfl rfl id
  obtain ⟨task, why⟩ | ⟨done⟩ | ⟨f⟩ := progress
  · exact .of_frame rfl rfl id
  · dsimp only
    rw [fst_finished]
    exact hreleased.trans (.complete env rfl _ _ _)
  · dsimp only
    rw [fst_finished]
    exact (hreleased.trans (.reportFault _ ⟨d.name, a.index⟩ f.message)).trans
      (.complete (p := (p.released s).reportFault _ _) env rfl _ _ _)

/-- Without a command at its place nothing is stepped. -/
theorem sequel_stray (h : ∀ d c, p.player.document = some d → d.command? a.index ≠ some c)
    (delta : Nanoseconds) : Sequel p (p.stepActive env a delta).1 := by
  cases hd : p.player.document with
  | none =>
    rw [stepActive_of_no_document hd]
    exact .refl p
  | some d =>
    rw [stepActive_of_no_command hd (Option.eq_none_iff_forall_ne_some.2 (h d · hd))]
    exact .of_frame rfl rfl id

theorem deed_stepActive (ha : p.player.active = some a) (delta : Nanoseconds) :
    Deed env p (p.stepActive env a delta).1 := by
  by_cases h : ∃ d c, p.player.document = some d ∧ d.command? a.index = some c
  · obtain ⟨d, c, hd, hc⟩ := h
    exact .works delta hd ha hc (sequel_work hd hc delta)
  · exact .rests (sequel_stray (fun d c hd hc => h ⟨d, c, hd, hc⟩) delta)

theorem Step.deed (h : Step env p q) : Deed env p q := by
  cases h with
  | interrupt hc => exact deed_interrupt p
  | leave delta => exact .rests (sequel_leaveWait env p delta)
  | goOn => exact .rests (sequel_continueInput p)
  | reach hb ha => exact .rests (sequel_reach p)
  | arrive hrun ha hreach => exact deed_arrive ha
  | work hrun ha delta => exact deed_stepActive ha delta

/-- Whatever a step captures is captured of the services that it leaves. -/
theorem Step.snapshots (h : Step env p q) : ∀ y ∈ q.manager.stack.snapshots,
    (∃ x ∈ p.manager.stack.snapshots, x.Alike y) ∨
      StateMap.collect q.services .game = .ok y.records := by
  have hlift : ∀ u : Playback, u.manager.stack = p.manager.stack → Sequel u q →
      ∀ y ∈ q.manager.stack.snapshots, (∃ x ∈ p.manager.stack.snapshots, x.Alike y) ∨
        StateMap.collect q.services .game = .ok y.records := by
    intro u hu hseq y hy
    rw [hseq.services, ← hu]
    exact hseq.snapshots y hy
  cases h.deed with
  | rests h => exact hlift _ (by rfl) h
  | drops ha h => exact hlift _ (by rfl) h
  | @starts d i c hd hi hc h =>
    have hkeeps := (reported_eq env p.entering ⟨d.name, i⟩ c.name).2.2.1
    exact hlift _ (congrArg StateManager.stack hkeeps.manager) h
  | works delta hd ha hc h => exact hlift _ (by rfl) h

end Playhead.Playback
