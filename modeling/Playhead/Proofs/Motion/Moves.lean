import Playhead.Proofs.Motion.Recorded

/-!
The moves of playback: the steps that playing makes, each with the states before and after it, and
what a host does to playback beside them.

While playback waits for input no command is in flight.
-/

namespace Playhead.Playback

/-- A step of playback, with the states before and after it. -/
structure Move where
  before : Playback
  after : Playback

/-- The moves along a trace. -/
def Move.along : Playback → List Playback → List Move
  | _, [] => []
  | p, q :: rest => ⟨p, q⟩ :: along q rest

/-- Playback of scripts that were read. Unless it is over, the script that plays is the one that is
held under its name. -/
structure Sited (env : Env) (p : Playback) : Prop extends Steps env p where
  current : p.bearings.Current

/-- No command is in flight while playback waits for input. -/
def Settled (p : Playback) : Prop :=
  p.cursor.waiting = true → p.player.active = none

/-- Playback that runs forward. -/
def hasten (p : Playback) (f : FastForward) : Playback :=
  { p with player := { p.player with
    cursor := { p.cursor with skipping := true }
    fastForward := some f } }

/-- Playback after a run forward. -/
def relax (p : Playback) (skipping : Bool) : Playback :=
  { p with player := { p.player with
    cursor := { p.cursor with skipping := skipping }
    fastForward := none } }

/-- The moves of a run forward to an index. -/
def forwardMoves (env : Env) (p : Playback) (target : Nat) : List Move :=
  match p.player.document, p.cursor.index with
  | some d, some start =>
    if target ≤ start || d.size < target || !p.player.isRunning then []
    else if isBlocked env.source.registry d start target || p.choicesPending then []
    else
      let begun := p.hasten ⟨d.name, target, false, false⟩
      Move.along begun
        (begun.forwardTrace env p.cursor.played (env.config.fastForwardLimit + 1))
  | _, _ => []

/-- All that a service holds was brought about by one of some moves. -/
def Traced {α β : Type} (part : ServiceSet → Option α) (holds : α → β → Prop)
    (brings : Move → β → Prop) (H : List Move) (s : ServiceSet) : Prop :=
  ∃ v, part s = some v ∧ ∀ b, holds v b → ∃ g ∈ H, brings g b

section

variable {α β : Type} {part : ServiceSet → Option α} {holds : α → β → Prop}
  {brings : Move → β → Prop} {H K : List Move} {s s' : ServiceSet} {v v' : α}

/-- A service that holds no more is traced as well. -/
theorem Traced.of_subset (h : Traced part holds brings H s) (hs : part s = some v)
    (hs' : part s' = some v') (hsub : ∀ b, holds v' b → holds v b) :
    Traced part holds brings H s' := by
  obtain ⟨w, hw, hall⟩ := h
  cases hs.symm.trans hw
  exact ⟨v', hs', fun b hb => hall b (hsub b hb)⟩

theorem Traced.congr (h : Traced part holds brings H s) (hs : part s' = part s) :
    Traced part holds brings H s' := by
  obtain ⟨v, hv, hall⟩ := h
  exact ⟨v, hs.trans hv, hall⟩

theorem Traced.more (h : Traced part holds brings H s) (hK : H ⊆ K) :
    Traced part holds brings K s := by
  obtain ⟨v, hv, hall⟩ := h
  refine ⟨v, hv, fun b hb => ?_⟩
  obtain ⟨g, hg, hbrings⟩ := hall b hb
  exact ⟨g, hK hg, hbrings⟩

end

variable {env : Env} {p q r : Playback} {l : List Playback} {a : ActiveCommand}

theorem Sited.turns {w : Leeway} (hp : Sited env p) (h : Turns env w p q) : Sited env q :=
  ⟨hp.toSteps.turns h, hp.current.turns h⟩

theorem Sited.step (hp : Sited env p) (h : Step env p q) : Sited env q :=
  hp.turns (w := .none) (h.turns hp.registry hp.read)

/-- A run forward is refused, or plays in haste along its trace. -/
theorem fastForward_cases (env : Env) (p : Playback) (target : Nat) :
    (p.fastForward env target).1 = p ∧ p.forwardMoves env target = [] ∨
      ∃ f, (p.fastForward env target).1 = (Playback.forward env p.cursor.played
          (env.config.fastForwardLimit + 1) (p.hasten f)).1.relax p.cursor.skipping ∧
        p.forwardMoves env target = Move.along (p.hasten f)
          ((p.hasten f).forwardTrace env p.cursor.played (env.config.fastForwardLimit + 1)) := by
  unfold Playback.fastForward forwardMoves
  cases p.player.document with
  | none => exact .inl ⟨rfl, rfl⟩
  | some d =>
    cases p.cursor.index with
    | none => exact .inl ⟨rfl, rfl⟩
    | some start =>
      dsimp only
      split
      · exact .inl ⟨rfl, rfl⟩
      · split
        · exact .inl ⟨rfl, rfl⟩
        · exact .inr ⟨⟨d.name, target, false, false⟩, rfl, rfl⟩

/-- What every step keeps, together with the moves that were made, holds before each move of a path
and at its end. -/
theorem Path.along_keeps {J : List Move → Playback → Prop} (h : Path env p l q)
    (hstep : ∀ H p q, Step env p q → J H p → J (H ++ [⟨p, q⟩]) q) {H : List Move} (hp : J H p) :
    J (H ++ Move.along p l) q ∧ ∀ earlier m later, Move.along p l = earlier ++ m :: later →
      Step env m.before m.after ∧ J (H ++ earlier) m.before := by
  induction h generalizing H with
  | nil p =>
    exact ⟨(List.append_nil H).symm ▸ hp, fun earlier m later h => by simp [Move.along] at h⟩
  | @cons p q r l h tail ih =>
    obtain ⟨hend, hall⟩ := ih (hstep H p q h hp)
    refine ⟨?_, fun earlier m later heq => ?_⟩
    · rw [List.append_assoc] at hend
      exact hend
    · rcases List.cons_eq_append_iff.1 heq with ⟨rfl, hrest⟩ | ⟨rest, rfl, hrest⟩
      · obtain ⟨rfl, -⟩ := List.cons.inj hrest
        exact ⟨h, (List.append_nil H).symm ▸ hp⟩
      · obtain ⟨hm, hJ⟩ := hall rest m later hrest
        rw [List.append_assoc] at hJ
        exact ⟨hm, hJ⟩

theorem settled_of_idle (h : p.player.active = none) : p.Settled :=
  fun _ => h

theorem settled_of_not_waiting (h : p.cursor.waiting = false) : p.Settled :=
  fun hw => by rw [h] at hw; cases hw

theorem Settled.congr (hp : p.Settled) (hw : q.cursor.waiting = true → p.cursor.waiting = true)
    (ha : q.player.active = p.player.active) : q.Settled :=
  fun h => ha.trans (hp (hw h))

theorem waiting_setSkip (p : Playback) (on : Bool) :
    (p.setSkip on).cursor.waiting = p.cursor.waiting := by
  unfold setSkip
  split <;> rfl

theorem waiting_setAutoPlay (p : Playback) (on : Bool) :
    (p.setAutoPlay on).cursor.waiting = p.cursor.waiting := by
  unfold setAutoPlay
  split <;> rfl

theorem waiting_continueInput (p : Playback) (h : p.continueInput.cursor.waiting = true) :
    p.cursor.waiting = true := by
  unfold continueInput at h
  split at h
  · exact h
  · cases h

theorem waiting_reported (env : Env) (p : Playback) (spot : Spot) (name : String) :
    (p.reported env spot name).cursor.waiting = p.cursor.waiting := by
  unfold reported trackRead
  split
  · rfl
  · dsimp only
    split
    · exact waiting_setSkip _ false
    · rfl

theorem cursor_checkForward (p : Playback) (d : Document) (i : Nat) :
    (p.checkForward d i).1.cursor = p.cursor := by
  unfold checkForward
  split
  · rfl
  · split <;> rfl

/-- Playback that has started a command waits no more than before. -/
theorem waiting_beginWithin (env : Env) (n : Nat) (hw : p.cursor.waiting = false)
    (hs : (p.beginWithin env n).2 = .ok .started) :
    (p.beginWithin env n).1.cursor.waiting = false := by
  induction n generalizing p with
  | zero => cases hs
  | succ n ih =>
    rw [beginWithin] at hs ⊢
    cases hi : p.cursor.index with
    | none =>
      simp only [hi] at hs
      cases hs
    | some i =>
      cases hd : p.player.document with
      | none =>
        simp only [hi, hd] at hs
        cases hs
      | some d =>
        simp only [hi, hd] at hs ⊢
        cases hc : d.command? i with
        | none =>
          rw [hc] at hs
          cases hs
        | some c =>
          have hcheck := cursor_checkForward p d i
          rw [hc] at hs
          dsimp only at hs ⊢
          generalize p.checkForward d i = r at hs hcheck ⊢
          obtain ⟨q, _ | _⟩ := r
          · have hq : q.cursor.waiting = false := (congrArg Cursor.waiting hcheck).trans hw
            dsimp only at hs ⊢
            generalize d.entry i q.player.arrivedByBranch _ = entry at hs ⊢
            cases entry with
            | skip next => exact ih hq hs
            | run =>
              cases hk : env.source.registry.get? c.name with
              | none =>
                rw [hk] at hs
                exact ih hq hs
              | some h =>
                rw [hk] at hs
                dsimp only at hs ⊢
                rw [begin_eq] at hs ⊢
                cases hb : h.begin c with
                | ok task => exact (waiting_reported env _ _ _).trans hq
                | error f =>
                  rw [hb] at hs
                  exact absurd hs (snd_passed_ne _).2
          · cases hs

theorem waiting_leaveWait (env : Env) (delta : Nanoseconds)
    (h : (p.leaveWait env delta).2 = true) : (p.leaveWait env delta).1.cursor.waiting = false := by
  obtain ⟨t, hleave⟩ | ⟨t, hleave⟩ := leaveWait_cases env p delta
  · rw [hleave] at h
    cases h
  · rw [hleave]
    rfl

/-- A property that playback has between ticks: it holds where no command is in flight, it is not
lost in a wait, and a command that goes on leaves playback with it. -/
structure Endures (env : Env) (K : Playback → Prop) : Prop where
  idle : ∀ {p}, p.player.active = none → K p
  leave : ∀ {p} (delta : Nanoseconds), K p → K (p.leaveWait env delta).1
  suspend : ∀ {p : Playback} {a : ActiveCommand} {ctx : Context} {task : Task} {why : Suspension}
    {s : ServiceSet}, p.cursor.waiting = false →
    a.task.step ctx p.services = (.suspended task why, s) →
    K { p.withServices s with player := { p.player with active := some { a with task := task } } }

section

variable {K : Playback → Prop}

theorem Endures.stepActive (hK : Endures env K) (hs : Steps env p)
    (hrun : p.player.isRunning = true) (hw : p.cursor.waiting = false) (a : ActiveCommand)
    (delta : Nanoseconds) : K (p.stepActive env a delta).1 := by
  have hfinish : ∀ (q : Playback) (c : Completion),
      q.bearings = { p.bearings with active := none } →
      K (finished (q.complete env a.index c a.eligible)).1 := by
    intro q c hq
    have hindex : q.cursor.index = p.cursor.index := congrArg Bearings.index hq
    rw [fst_finished]
    refine hK.idle (complete_rests (w := .none) hs.registry ?_
      (congrArg Bearings.active hq) (hindex ▸ index_of_isRunning hrun) a.index c a.eligible).idle
    rw [hq]
    exact ⟨hs.read.library, hs.read.document⟩
  obtain ⟨⟨d, hd⟩, -⟩ := isRunning_iff.1 hrun
  cases hc : d.command? a.index with
  | none =>
    rw [stepActive_of_no_command hd hc]
    exact hK.idle rfl
  | some c =>
    rw [stepActive_eq hd hc]
    cases hstep : a.task.step ⟨c, ⟨d.name, a.index⟩, delta, p.cursor.skipping, false,
        p.scopes.isCancelled p.player.scope⟩ p.services with
    | mk progress s =>
      cases progress with
      | suspended task why => exact hK.suspend hw hstep
      | completed done => exact hfinish _ _ rfl
      | faulted f => exact hfinish _ _ rfl

/-- Stepping the command in flight and then running on leaves playback with the property. -/
theorem Endures.step_run {n : Nat} (hK : Endures env K)
    (hrest : ∀ q, Steps env q → q.player.active = none → K (run env n 0 q).1) (hs : Steps env p)
    (hrun : p.player.isRunning = true) (hw : p.cursor.waiting = false)
    (ha : p.player.active = some a) (delta : Nanoseconds) :
    K (match p.stepActive env a delta with
      | (p, .error e) => (p, (.error e : Except JumpError Unit))
      | (p, .ok false) => (p, .ok ())
      | (p, .ok true) => run env n 0 p).1 := by
  have hstep := hK.stepActive hs hrun hw a delta
  obtain ⟨hturns, hidle⟩ :=
    stepActive_turns (w := .none) hs.registry hs.read ha (index_of_isRunning hrun) delta
  generalize p.stepActive env a delta = r at hstep hturns hidle ⊢
  obtain ⟨q, e | (_ | _)⟩ := r
  · exact hstep
  · exact hstep
  · exact hrest q (hs.turns hturns) (hidle rfl)

theorem Endures.run (hK : Endures env K) (n : Nat) (hn : n ≤ env.config.maxCommands)
    (hs : Steps env p) (ha : p.player.active = none) (delta : Nanoseconds) :
    K (Playback.run env n delta p).1 := by
  induction n generalizing p delta with
  | zero => exact hK.idle ha
  | succ n ih =>
    unfold Playback.run
    split
    · exact hK.idle ha
    · rename_i hgo
      obtain ⟨hrun, hw⟩ : p.player.isRunning = true ∧ p.cursor.waiting = false := by
        simpa using hgo
      have hb : 0 < env.config.maxCommands := Nat.lt_of_lt_of_le (Nat.succ_pos n) hn
      have hwaiting : (p.beginNext env).2 = .ok .started →
          (p.beginNext env).1.cursor.waiting = false := waiting_beginWithin env _ hw
      obtain ⟨-, hrunning, -⟩ := beginNext_path hb hs hrun ha
      have hbegin := beginNext_begins (w := .none) hs.registry hs.read ha
      generalize p.beginNext env = r at hwaiting hrunning hbegin ⊢
      obtain ⟨q, e | (_ | _ | _)⟩ := r
      · exact hK.idle (hbegin.idle (by simp))
      · dsimp only
        cases hqa : q.player.active with
        | none => exact hK.idle hqa
        | some a =>
          exact hK.step_run (fun u hu hua => ih (Nat.le_of_succ_le hn) hu hua 0)
            (hs.turns hbegin.turns) (hrunning rfl) (hwaiting rfl) hqa delta
      · exact ih (Nat.le_of_succ_le hn) (hs.turns hbegin.turns) (hbegin.idle (by simp)) delta
      · exact hK.idle (hbegin.idle (by simp))

theorem Endures.advance (hK : Endures env K) (hs : Steps env p)
    (hrun : p.player.isRunning = true) (hw : p.cursor.waiting = false) (delta : Nanoseconds) :
    K (p.advance env delta).1 := by
  unfold Playback.advance
  cases ha : p.player.active with
  | none => exact hK.run _ (Nat.le_refl _) hs ha delta
  | some a =>
    dsimp only
    split
    · rename_i hstray
      have hstep : Step env p (p.stepActive env a delta).1 := .work hrun ha delta
      rw [stepActive_stray hstray] at hstep
      exact hK.run _ (Nat.le_refl _) (hs.turns (w := .none) (hstep.turns hs.registry hs.read)) rfl
        delta
    · exact hK.step_run (fun u hu hua => hK.run _ (Nat.le_refl _) hu hua 0) hs hrun hw ha delta

theorem Endures.tick (hK : Endures env K) (hp : K p) (hs : Steps env p) (delta : Nanoseconds) :
    K (p.tick env delta).1 := by
  unfold Playback.tick
  cases hrun : p.player.isRunning with
  | false => exact hp
  | true =>
    simp only [Bool.not_true, Bool.false_eq_true, if_false]
    split
    · exact hK.idle (congrArg Bearings.active p.interrupt_bearings)
    · split
      · have hleave := hK.leave delta hp
        have hstep : Step env p (p.leaveWait env delta).1 := .leave delta
        have hsteps := hs.turns (w := .none) (hstep.turns hs.registry hs.read)
        have hsame : (p.leaveWait env delta).1.player.isRunning = true :=
          (congrArg (fun q : Playback => q.player.isRunning)
            (p.bare_leaveWait env delta)).trans hrun
        have hgoes : (p.leaveWait env delta).2 = true →
            (p.leaveWait env delta).1.cursor.waiting = false := waiting_leaveWait env delta
        generalize p.leaveWait env delta = r at hleave hsteps hsame hgoes ⊢
        obtain ⟨q, _ | _⟩ := r
        · exact hleave
        · exact hK.advance hsteps hsame (hgoes rfl) delta
      · rename_i hw
        exact hK.advance hs hrun (Bool.eq_false_iff.2 hw) delta

theorem Endures.forward (hK : Endures env K) (hp : K p) (hs : Steps env p)
    (startedAt left : Nat) : K (Playback.forward env startedAt left p).1 := by
  induction left generalizing p with
  | zero =>
    unfold Playback.forward
    split
    · exact hp
    · split
      · exact hp
      · split <;> exact hp
  | succ left ih =>
    unfold Playback.forward
    split
    · exact hp
    · split
      · exact hp
      · split
        · exact hp
        · have htick := hK.tick hp hs 0
          have hsteps := (tick_path 0 hs).steps hs
          dsimp only
          generalize p.tick env 0 = r at htick hsteps ⊢
          obtain ⟨q, e | u⟩ := r
          · exact htick
          · exact ih htick hsteps

end

/-- While playback waits for input after a tick no command is in flight. -/
theorem endures_settled (env : Env) : Endures env Settled where
  idle := settled_of_idle
  leave := fun {p} delta hp => by
    refine hp.congr (fun h => ?_) (Stays.leaveWait env p delta).active
    obtain ⟨t, hleave⟩ | ⟨t, hleave⟩ := leaveWait_cases env p delta <;> rw [hleave] at h
    · exact h
    · cases h
  suspend hw _ := settled_of_not_waiting hw

/-- What a host does to playback that leaves the services and starts no command. History loses
snapshots, or takes up those of a kind. -/
structure Guides (K : Snapshot → Prop) (p q : Playback) : Prop where
  services : q.services = p.services
  active : q.player.active = p.player.active ∨ q.player.active = none
  settled : p.Settled → q.Settled
  snapshots : ∀ y ∈ q.manager.stack.snapshots,
    ∃ x, (x ∈ p.manager.stack.snapshots ∨ K x) ∧ x.Alike y

section

variable {K : Snapshot → Prop}

/-- A change that leaves what is in flight. -/
theorem Guides.of_frame (hs : q.services = p.services) (ha : q.player.active = p.player.active)
    (hw : q.cursor.waiting = true → p.cursor.waiting = true)
    (hk : q.manager.stack = p.manager.stack) : Guides K p q :=
  ⟨hs, .inl ha, fun hp => hp.congr hw ha, fun y hy => ⟨y, .inl (hk ▸ hy), .refl y⟩⟩

/-- A change after which nothing is in flight. -/
theorem Guides.of_idle (hs : q.services = p.services) (ha : q.player.active = none)
    (hk : q.manager.stack = p.manager.stack) : Guides K p q :=
  ⟨hs, .inr ha, fun _ => settled_of_idle ha, fun y hy => ⟨y, .inl (hk ▸ hy), .refl y⟩⟩

theorem guides_setSkip (p : Playback) (on : Bool) : Guides K p (p.setSkip on) :=
  .of_frame (p.services_setSkip on) (congrArg Bearings.active (p.bearings_setSkip on))
    (fun h => (waiting_setSkip p on).symm.trans h)
    (congrArg Bearings.stack (p.bearings_setSkip on))

theorem guides_setAutoPlay (p : Playback) (on : Bool) : Guides K p (p.setAutoPlay on) :=
  .of_frame (p.services_setAutoPlay on) (congrArg Bearings.active (p.bearings_setAutoPlay on))
    (fun h => (waiting_setAutoPlay p on).symm.trans h)
    (congrArg Bearings.stack (p.bearings_setAutoPlay on))

theorem guides_continueInput (p : Playback) : Guides K p p.continueInput :=
  .of_frame p.services_continueInput (congrArg Bearings.active p.bearings_continueInput)
    p.waiting_continueInput (congrArg Bearings.stack p.bearings_continueInput)

theorem guides_resume (p : Playback) : Guides K p { p with player := p.player.resume.1 } := by
  unfold Player.resume
  split <;> exact .of_frame rfl rfl id rfl

theorem guides_moveTo (p : Playback) (d : Document) (i : Nat) (atEnd : StopReason) :
    Guides K p (p.moveTo d i atEnd) := by
  refine .of_frame (p.services_moveTo d i atEnd)
    (congrArg Bearings.active (p.bearings_moveTo d i atEnd)) (fun h => ?_)
    (congrArg Bearings.stack (p.bearings_moveTo d i atEnd))
  unfold moveTo at h
  dsimp only at h
  split at h <;> cases h

theorem cancelActive_cancelActive (p : Playback) :
    p.cancelActive.cancelActive = p.cancelActive :=
  cancelActive_of_idle (congrArg Bearings.active p.bearings_cancelActive)

theorem stop_cancelActive (p : Playback) (reason : StopReason) :
    p.cancelActive.stop reason = p.stop reason := by
  unfold stop
  rw [cancelActive_cancelActive]

theorem start_cancelActive (p : Playback) (d : Document) (i : Nat) :
    p.cancelActive.start d i = p.start d i := by
  unfold start
  rw [cancelActive_cancelActive]

theorem restorePosition_cancelActive (p : Playback) (d : Document) (i played : Nat)
    (waiting : Bool) :
    p.cancelActive.restorePosition d i played waiting =
      p.restorePosition d i played waiting := by
  unfold restorePosition
  rw [cancelActive_cancelActive]

theorem guides_stop (ha : p.player.active = none) (reason : StopReason) :
    Guides K p (p.stop reason) := by
  refine .of_idle ?_ (congrArg Bearings.active (p.bearings_stop reason))
    (congrArg Bearings.stack (p.bearings_stop reason))
  unfold stop
  rw [cancelActive_of_idle ha]
  rfl

theorem guides_start (ha : p.player.active = none) (d : Document) (i : Nat) :
    Guides K p (p.start d i) := by
  refine .of_idle ?_ (congrArg Bearings.active (p.bearings_start d i))
    (congrArg Bearings.stack (p.bearings_start d i))
  have hskip := p.services_setSkip false
  unfold start
  rw [cancelActive_of_idle ha]
  dsimp only
  split <;> exact hskip

theorem guides_restorePosition (ha : p.player.active = none) (d : Document) (i played : Nat)
    (waiting : Bool) : Guides K p (p.restorePosition d i played waiting) := by
  refine .of_idle ?_ (congrArg Bearings.active (p.bearings_restorePosition d i played waiting))
    (congrArg Bearings.stack (p.bearings_restorePosition d i played waiting))
  rw [services_restorePosition, cancelActive_of_idle ha]

end

end Playhead.Playback
