import Playhead.Proofs.Bearings.Placed
import Playhead.Proofs.Bearings.Tick
import Playhead.Proofs.Motion.Bare

/-!
The steps that a tick is made of, and the states of playback it passes through.

What every step keeps, a tick keeps; that is shown once here for all properties.
-/

namespace Playhead.Playback

/-- Playback goes on at a later command of its script, past whose end it is over. -/
def passTo (p : Playback) (d : Document) (next : Nat) : Playback :=
  let q := p.entering.withCursor { p.cursor with index := some next }
  if next < d.size then q else q.endOfScript .endOfScript

/-- Starts the command at the cursor or leaves it out. -/
def arrive (env : Env) (p : Playback) : Playback :=
  match p.cursor.index, p.player.document with
  | some i, some d =>
    match d.entry i p.player.arrivedByBranch p.services with
    | .skip next => p.passTo d next
    | .run =>
      match (d.command? i).bind fun c => (env.source.registry.get? c.name).map (c, ·) with
      | some (c, h) => (p.entering.begin env d i c h).1
      | none => p
  | _, _ => p

/-- Ends a run forward if the cursor is at its target or after it; tells whether it has ended. -/
def reach (p : Playback) : Playback × Bool :=
  match p.cursor.index, p.player.document with
  | some i, some d => p.checkForward d i
  | _, _ => (p, false)

/-- All that one step of playing on can be. -/
inductive Step (env : Env) (p : Playback) : Playback → Prop where
  | interrupt (hc : p.scopes.isCancelled p.player.scope = true) : Step env p p.interrupt
  | leave (delta : Nanoseconds) : Step env p (p.leaveWait env delta).1
  | goOn : Step env p p.continueInput
  | reach (hb : 0 < env.config.maxCommands) (ha : p.player.active = none) : Step env p p.reach.1
  | arrive (hrun : p.player.isRunning = true) (ha : p.player.active = none)
      (hreach : p.reach.2 = false) : Step env p (p.arrive env)
  | work {a : ActiveCommand} (hrun : p.player.isRunning = true) (ha : p.player.active = some a)
      (delta : Nanoseconds) : Step env p (p.stepActive env a delta).1

/-- Finitely many steps and the states they come to, one after the other. -/
inductive Path (env : Env) : Playback → List Playback → Playback → Prop where
  | nil (p : Playback) : Path env p [] p
  | cons {p q r : Playback} {l : List Playback} (h : Step env p q) (tail : Path env q l r) :
    Path env p (q :: l) r

namespace Path

variable {env : Env} {p q r : Playback} {l m : List Playback}

theorem one (h : Step env p q) : Path env p [q] q :=
  .cons h (.nil q)

theorem append (h : Path env p l q) (h' : Path env q m r) : Path env p (l ++ m) r := by
  induction h with
  | nil => exact h'
  | cons hs _ ih => exact .cons hs (ih h')

/-- What every step keeps, finitely many steps keep. -/
theorem keeps {I : Playback → Prop} (h : Path env p l q)
    (hstep : ∀ p q, Step env p q → I p → I q) (hp : I p) : I q := by
  induction h with
  | nil => exact hp
  | cons hs _ ih => exact ih (hstep _ _ hs hp)

end Path

/-- Playing goes along a trace to its result. It fails in its last step only, which is one of a
command in flight. -/
structure Along (env : Env) (p : Playback) (l : List Playback)
    (r : Playback × Except JumpError Unit) : Prop where
  path : Path env p l r.1
  fails : ∀ why, r.2 = .error why → ∃ earlier u a delta, l = earlier ++ [r.1] ∧
    Path env p earlier u ∧ u.player.active = some a ∧
    u.stepActive env a delta = (r.1, .error why)

namespace Along

variable {env : Env} {p q : Playback} {l m : List Playback}
  {r : Playback × Except JumpError Unit}

theorem ok (h : Path env p l q) : Along env p l (q, .ok ()) :=
  ⟨h, nofun⟩

theorem after (h : Path env p l q) (h' : Along env q m r) : Along env p (l ++ m) r := by
  refine ⟨h.append h'.path, fun why hwhy => ?_⟩
  obtain ⟨earlier, u, a, delta, hm, hpath, hlast⟩ := h'.fails why hwhy
  exact ⟨l ++ earlier, u, a, delta, by rw [hm, List.append_assoc], h.append hpath, hlast⟩

end Along

/-- The states that looking for the next command to start passes through. -/
def beginTrace (env : Env) : Nat → Playback → List Playback
  | 0, _ => []
  | n + 1, p =>
    match p.cursor.index, p.player.document with
    | some i, some d =>
      if p.reach.2 then [p.reach.1]
      else p.arrive env ::
        match d.entry i p.player.arrivedByBranch p.services with
        | .skip _ => beginTrace env n (p.arrive env)
        | .run => []
    | _, _ => []

/-- The states that a run passes through. -/
def runTrace (env : Env) : Nat → Nanoseconds → Playback → List Playback
  | 0, _, _ => []
  | n + 1, delta, p =>
    if !p.player.isRunning || p.cursor.waiting then []
    else
      beginTrace env (((p.player.document.map (·.size)).getD 0) + 1) p ++
        match p.beginNext env with
        | (p, .ok .completed) => runTrace env n delta p
        | (p, .ok .started) =>
          match p.player.active with
          | none => []
          | some a =>
            (p.stepActive env a delta).1 ::
              match p.stepActive env a delta with
              | (p, .ok true) => runTrace env n 0 p
              | _ => []
        | _ => []

def advanceTrace (env : Env) (p : Playback) (delta : Nanoseconds) : List Playback :=
  match p.player.active with
  | none => runTrace env env.config.maxCommands delta p
  | some a =>
    if p.isStray a then
      let p : Playback := { p with player := { p.player with active := none } }
      p :: runTrace env env.config.maxCommands delta p
    else
      (p.stepActive env a delta).1 ::
        match p.stepActive env a delta with
        | (p, .ok true) => runTrace env env.config.maxCommands 0 p
        | _ => []

/-- The states that a tick passes through. -/
def tickTrace (env : Env) (p : Playback) (delta : Nanoseconds) : List Playback :=
  if !p.player.isRunning then []
  else if p.scopes.isCancelled p.player.scope then [p.interrupt]
  else if p.cursor.waiting then
    (p.leaveWait env delta).1 ::
      match p.leaveWait env delta with
      | (_, false) => []
      | (p, true) => p.advanceTrace env delta
  else p.advanceTrace env delta

/-- The states that playing forward passes through. -/
def forwardTrace (env : Env) (startedAt : Nat) : Nat → Playback → List Playback
  | left, p =>
    match p.player.fastForward with
    | none => []
    | some f =>
      if f.reached then []
      else if f.missed || !p.player.isRunning || p.cursor.script ≠ f.script || p.choicesPending ||
          env.config.fastForwardLimit < p.cursor.played - startedAt then []
      else
        match left with
        | 0 => []
        | left + 1 =>
          p.tickTrace env 0 ++
            match p.tick env 0 with
            | (p, .ok ()) => forwardTrace env startedAt left p
            | _ => []

section

variable {env : Env} {w : Leeway} {p q : Playback} {d : Document} {i : Nat}

theorem reach_eq (hd : p.player.document = some d) (hi : p.cursor.index = some i) :
    p.reach = p.checkForward d i := by
  unfold reach
  rw [hd, hi]

theorem bearings_reach (p : Playback) : p.reach.1.bearings = p.bearings := by
  unfold reach
  split
  · exact p.bearings_checkForward _ _
  · rfl

theorem isRunning_iff : p.player.isRunning = true ↔
    (∃ d, p.player.document = some d) ∧ p.player.halted = false ∧
      ∃ i, p.cursor.index = some i := by
  unfold Player.isRunning Cursor.isStopped Playback.cursor
  cases p.player.document <;> cases p.player.halted <;> cases p.player.cursor.index <;> simp

theorem isRunning_of_goesOn {waits : Bool} (h : ¬(!p.player.isRunning || waits) = true) :
    p.player.isRunning = true := by
  cases hrun : p.player.isRunning with
  | true => rfl
  | false =>
    rw [hrun] at h
    exact absurd rfl h

theorem arrive_skip {next : Nat} (hd : p.player.document = some d)
    (hi : p.cursor.index = some i)
    (he : d.entry i p.player.arrivedByBranch p.services = .skip next) :
    p.arrive env = p.passTo d next := by
  unfold arrive
  simp only [hd, hi, he]

theorem arrive_run {c : Command} {h : Handler} (hd : p.player.document = some d)
    (hi : p.cursor.index = some i)
    (he : d.entry i p.player.arrivedByBranch p.services = .run) (hc : d.command? i = some c)
    (hr : env.source.registry.get? c.name = some h) :
    p.arrive env = (p.entering.begin env d i c h).1 := by
  unfold arrive
  simp only [hd, hi, he, hc, Option.bind_some, hr, Option.map_some]

theorem passTo_turns (hd : p.player.document = some d) (hi : p.cursor.index ≠ none)
    (ha : p.player.active = none) (next : Nat) : Turns env w p (p.passTo d next) := by
  unfold passTo
  dsimp only
  split
  · rename_i hlt
    exact .one (.pass (b := p.bearings) hd hlt hi ha)
  · exact .one (.leave (b := p.bearings) ha)

theorem Step.turns (hr : env.source.registry.Sound) (hp : p.bearings.Read env.source.registry)
    (h : Step env p q) : Turns env w p q := by
  cases h with
  | interrupt hc =>
    refine .one ?_
    rw [interrupt_bearings]
    exact .drop
  | leave delta => exact .of_eq (p.bearings_leaveWait env delta)
  | goOn => exact .of_eq p.bearings_continueInput
  | reach hb ha => exact .of_eq p.bearings_reach
  | arrive hrun ha hreach =>
    obtain ⟨⟨d, hd⟩, -, i, hi⟩ := isRunning_iff.1 hrun
    cases he : d.entry i p.player.arrivedByBranch p.services with
    | skip next =>
      rw [arrive_skip hd hi he]
      exact passTo_turns hd (hi ▸ Option.some_ne_none i) ha next
    | run =>
      unfold Playback.arrive
      simp only [hd, hi, he]
      split
      · rename_i c h hc
        obtain ⟨c', hc', hmap⟩ := Option.bind_eq_some_iff.1 hc
        obtain ⟨h', hr', heq⟩ := Option.map_eq_some_iff.1 hmap
        cases heq
        exact (begin_begins (p := p.entering) hr hp ha hd hi hc' hr').turns
      · exact .refl p
  | work hrun ha delta => exact (stepActive_turns hr hp ha (index_of_isRunning hrun) delta).1

theorem begin_started {c : Command} {h : Handler} (hrun : p.player.isRunning = true)
    (hs : (p.begin env d i c h).2 = .ok .started) :
    (p.begin env d i c h).1.player.isRunning = true := by
  obtain ⟨hdoc, hhalted, hindex⟩ := isRunning_iff.1 hrun
  obtain ⟨hst, -, -, hh⟩ := reported_eq env p ⟨d.name, i⟩ c.name
  rw [begin_eq] at hs ⊢
  generalize p.reported env ⟨d.name, i⟩ c.name = q at hst hh hs ⊢
  cases hb : h.begin c with
  | ok t =>
    have hqd : q.player.document = p.player.document := congrArg Standing.document hst
    have hqi : q.cursor.index = p.cursor.index := congrArg Standing.index hst
    refine isRunning_iff.2 ⟨hqd ▸ hdoc, ?_, hqi ▸ hindex⟩
    exact Bool.eq_false_iff.2 fun h => by cases hhalted.symm.trans (hh h)
  | error f =>
    rw [hb] at hs
    exact absurd hs (snd_passed_ne _).2

/-- A fault is no jump, so playback goes on after it. -/
theorem complete_ofFault_ne (env : Env) (p : Playback) (i : Nat) (role : BlockRole)
    (eligible : Bool) (why : JumpError) :
    (p.complete env i (.ofFault role) eligible).2 ≠ .error why := by
  unfold complete
  split
  · exact nofun
  · cases role <;> exact nofun

theorem begin_ne_error (env : Env) (p : Playback) (d : Document) (i : Nat) (c : Command)
    (h : Handler) (why : JumpError) : (p.begin env d i c h).2 ≠ .error why := by
  rw [begin_eq]
  cases h.begin c with
  | ok task => exact nofun
  | error f => exact fun herror => complete_ofFault_ne env _ _ _ _ why (eq_error_of_passed herror)

theorem passTo_of_lt {next : Nat} (h : next < d.size) :
    p.passTo d next = p.entering.withCursor { p.cursor with index := some next } :=
  if_pos h

theorem passTo_of_le {next : Nat} (h : d.size ≤ next) :
    p.passTo d next =
      (p.entering.withCursor { p.cursor with index := some next }).endOfScript .endOfScript :=
  if_neg (Nat.not_lt.2 h)

theorem beginTrace_eq (n : Nat) (hd : p.player.document = some d) (hi : p.cursor.index = some i) :
    p.beginTrace env (n + 1) =
      if (p.checkForward d i).2 then [(p.checkForward d i).1]
      else p.arrive env ::
        match d.entry i p.player.arrivedByBranch p.services with
        | .skip _ => beginTrace env n (p.arrive env)
        | .run => [] := by
  rw [beginTrace, hd, hi, reach_eq hd hi]

/-- Looking for the next command to start goes along its trace and does not fail. -/
theorem begin_path (n : Nat) (hb : 0 < env.config.maxCommands)
    (hp : p.bearings.Read env.source.registry)
    (hrun : p.player.isRunning = true) (ha : p.player.active = none)
    (hd : p.player.document = some d) (hi : p.cursor.index = some i) (hlt : i < d.size)
    (hn : d.size - i < n) :
    Path env p (p.beginTrace env n) (p.beginWithin env n).1 ∧
      ((p.beginWithin env n).2 = .ok .started →
        (p.beginWithin env n).1.player.isRunning = true) ∧
      ∀ why, (p.beginWithin env n).2 ≠ .error why := by
  induction n generalizing p i with
  | zero => cases hn
  | succ n ih =>
    obtain ⟨c, hc⟩ : ∃ c, d.command? i = some c := ⟨_, Array.getElem?_eq_getElem hlt⟩
    have hstaged := hp.document d hd
    obtain ⟨h, hr, -, -⟩ := hstaged.handler hc
    rw [beginTrace_eq n hd hi]
    cases hf : (p.checkForward d i).2 with
    | true =>
      rw [beginWithin_reached hf hd hi hc, if_pos rfl]
      have hstep : Step env p p.reach.1 := .reach hb ha
      rw [reach_eq hd hi] at hstep
      exact ⟨.one hstep, nofun, nofun⟩
    | false =>
      have hstep : Step env p (p.arrive env) := .arrive hrun ha (by rw [reach_eq hd hi, hf])
      rw [beginWithin_eq hf hd hi hc hr, if_neg Bool.false_ne_true]
      cases he : d.entry i p.player.arrivedByBranch p.services with
      | run =>
        rw [arrive_run hd hi he hc hr] at hstep ⊢
        exact ⟨.one hstep, begin_started (p := p.entering) hrun,
          begin_ne_error env p.entering d i c h⟩
      | skip next =>
        have hnext := entry_skip_lt hstaged he
        obtain ⟨q, hq⟩ : ∃ q, q = p.entering.withCursor { p.cursor with index := some next } :=
          ⟨_, rfl⟩
        have hqb : q.bearings = { p.bearings with index := some next } := by rw [hq]; rfl
        have hqi : q.cursor.index = some next := congrArg Bearings.index hqb
        have hqd : q.player.document = some d := (congrArg Bearings.document hqb).trans hd
        have hqa : q.player.active = none := (congrArg Bearings.active hqb).trans ha
        rw [arrive_skip hd hi he] at hstep ⊢
        dsimp only
        by_cases hsize : next < d.size
        · have hqrun : q.player.isRunning = true := by
            have hhalted := (isRunning_iff.1 hrun).2.1
            exact isRunning_iff.2 ⟨⟨d, hqd⟩, by rw [hq]; exact hhalted, next, hqi⟩
          have hread : q.bearings.Read env.source.registry := by
            rw [hqb]
            exact ⟨hp.library, hp.document⟩
          rw [passTo_of_lt hsize, ← hq] at hstep ⊢
          obtain ⟨htail, hrest⟩ := ih hread hqrun hqa hqd hqi hsize (by omega)
          exact ⟨.cons hstep htail, hrest⟩
        · have hge := Nat.le_of_not_lt hsize
          have hend : (q.endOfScript .endOfScript).beginTrace env n = [] := by
            cases n <;> rfl
          rw [passTo_of_le hge, ← hq] at hstep ⊢
          rw [beginWithin_end (by omega) hqd hqi hge, hend]
          exact ⟨.one hstep, nofun, nofun⟩

/-- Playback of scripts that were read, with the cursor at a command unless playback is over. -/
structure Steps (env : Env) (p : Playback) : Prop where
  registry : env.source.registry.Sound
  read : p.bearings.Read env.source.registry
  placed : p.bearings.Placed

theorem Steps.turns (hp : Steps env p) (h : Turns env w p q) : Steps env q :=
  ⟨hp.registry, hp.read.turns h, hp.placed.turns h⟩

theorem beginNext_path (hb : 0 < env.config.maxCommands) (hp : Steps env p)
    (hrun : p.player.isRunning = true) (ha : p.player.active = none) :
    Path env p (p.beginTrace env (((p.player.document.map (·.size)).getD 0) + 1))
        (p.beginNext env).1 ∧
      ((p.beginNext env).2 = .ok .started → (p.beginNext env).1.player.isRunning = true) ∧
      ∀ why, (p.beginNext env).2 ≠ .error why := by
  obtain ⟨⟨d, hd⟩, -, i, hi⟩ := isRunning_iff.1 hrun
  unfold beginNext
  rw [hd]
  exact begin_path _ hb hp.read hrun ha hd hi (hp.placed.inside d i hd hi)
    (Nat.lt_succ_of_le (Nat.sub_le _ _))

/-- Stepping the command in flight and then running on goes along its trace. -/
theorem step_run_along {n : Nat} (hrest : ∀ q, Steps env q → q.player.active = none →
      Along env q (q.runTrace env n 0) (run env n 0 q))
    (hp : Steps env p) (hrun : p.player.isRunning = true) {a : ActiveCommand}
    (ha : p.player.active = some a) (delta : Nanoseconds) :
    Along env p
      ((p.stepActive env a delta).1 ::
        match p.stepActive env a delta with
        | (p, .ok true) => runTrace env n 0 p
        | _ => [])
      (match p.stepActive env a delta with
        | (p, .error e) => (p, (.error e : Except JumpError Unit))
        | (p, .ok false) => (p, .ok ())
        | (p, .ok true) => run env n 0 p) := by
  have hstep : Step env p (p.stepActive env a delta).1 := .work hrun ha delta
  obtain ⟨hturns, hidle⟩ :=
    stepActive_turns (w := .none) hp.registry hp.read ha (index_of_isRunning hrun) delta
  generalize hr : p.stepActive env a delta = r at hstep hturns hidle ⊢
  obtain ⟨q, e | (_ | _)⟩ := r
  · refine ⟨.one hstep, fun why hwhy => ?_⟩
    cases hwhy
    exact ⟨[], p, a, delta, rfl, .nil p, ha, hr⟩
  · exact .ok (.one hstep)
  · exact (hrest q (hp.turns hturns) (hidle rfl)).after (.one hstep)

theorem run_along (n : Nat) (hn : n ≤ env.config.maxCommands) (delta : Nanoseconds)
    (hp : Steps env p) (ha : p.player.active = none) :
    Along env p (p.runTrace env n delta) (p.run env n delta) := by
  induction n generalizing p delta with
  | zero => exact .ok (.nil p)
  | succ n ih =>
    unfold runTrace run
    split
    · exact .ok (.nil p)
    · rename_i hgo
      have hrun := isRunning_of_goesOn hgo
      have hb : 0 < env.config.maxCommands := Nat.lt_of_lt_of_le (Nat.succ_pos n) hn
      have hle := Nat.le_of_succ_le hn
      obtain ⟨hpath, hstarted, hne⟩ := beginNext_path hb hp hrun ha
      have hbegin := beginNext_begins (w := .none) hp.registry hp.read ha
      generalize p.beginNext env = r at hpath hstarted hne hbegin ⊢
      obtain ⟨q, e | (_ | _ | _)⟩ := r
      · exact absurd rfl (hne e)
      · dsimp only
        cases hqa : q.player.active with
        | none => exact .ok ((List.append_nil _).symm ▸ hpath)
        | some a =>
          exact (step_run_along (fun u hu hua => ih hle 0 hu hua) (hp.turns hbegin.turns)
            (hstarted rfl) hqa delta).after hpath
      · exact (ih hle delta (hp.turns hbegin.turns) (hbegin.idle (by simp))).after hpath
      · exact .ok ((List.append_nil _).symm ▸ hpath)

theorem stepActive_stray {a : ActiveCommand} (h : p.isStray a = true) (delta : Nanoseconds) :
    (p.stepActive env a delta).1 = { p with player := { p.player with active := none } } := by
  unfold isStray at h
  cases hd : p.player.document with
  | none => rw [hd] at h; cases h
  | some d =>
    rw [hd] at h
    rw [stepActive_of_no_command hd (Option.isNone_iff_eq_none.1 h)]

theorem advance_along (delta : Nanoseconds) (hp : Steps env p)
    (hrun : p.player.isRunning = true) :
    Along env p (p.advanceTrace env delta) (p.advance env delta) := by
  unfold advanceTrace advance
  cases ha : p.player.active with
  | none => exact run_along _ (Nat.le_refl _) delta hp ha
  | some a =>
    dsimp only
    split
    · rename_i hstray
      have hstep : Step env p (p.stepActive env a delta).1 := .work hrun ha delta
      rw [stepActive_stray hstray] at hstep
      exact (run_along _ (Nat.le_refl _) delta
        (hp.turns (w := .none) (hstep.turns hp.registry hp.read)) rfl).after (.one hstep)
    · exact step_run_along (fun u hu hua => run_along _ (Nat.le_refl _) 0 hu hua) hp hrun ha delta

/-- A tick goes along its trace. -/
theorem tick_along (delta : Nanoseconds) (hp : Steps env p) :
    Along env p (p.tickTrace env delta) (p.tick env delta) := by
  unfold tickTrace tick
  cases hrun : p.player.isRunning with
  | false => exact .ok (.nil p)
  | true =>
    simp only [Bool.not_true, Bool.false_eq_true, if_false]
    split
    · rename_i hc
      exact .ok (.one (.interrupt hc))
    · split
      · have hstep : Step env p (p.leaveWait env delta).1 := .leave delta
        have hturns := hp.turns (w := .none) (hstep.turns hp.registry hp.read)
        have hsame : (p.leaveWait env delta).1.player.isRunning = true :=
          (congrArg (fun q : Playback => q.player.isRunning)
            (p.bare_leaveWait env delta)).trans hrun
        generalize p.leaveWait env delta = r at hstep hturns hsame ⊢
        obtain ⟨q, _ | _⟩ := r
        · exact .ok (.one hstep)
        · exact (advance_along delta hturns hsame).after (.one hstep)
      · exact advance_along delta hp hrun

theorem tick_path (delta : Nanoseconds) (hp : Steps env p) :
    Path env p (p.tickTrace env delta) (p.tick env delta).1 :=
  (tick_along delta hp).path

theorem Path.steps (h : Path env p l q) (hs : Steps env p) : Steps env q :=
  h.keeps (fun _ _ h hs => hs.turns (w := .none) (h.turns hs.registry hs.read)) hs

/-- Playing forward goes along its trace. -/
theorem forwardTrace_path (startedAt left : Nat) (hs : Steps env p) :
    Path env p (forwardTrace env startedAt left p) (Playback.forward env startedAt left p).1 := by
  induction left generalizing p with
  | zero =>
    unfold forwardTrace Playback.forward
    cases p.player.fastForward with
    | none => exact .nil p
    | some f =>
      dsimp only
      split
      · exact .nil p
      · split <;> exact .nil p
  | succ left ih =>
    unfold forwardTrace Playback.forward
    cases p.player.fastForward with
    | none => exact .nil p
    | some f =>
      dsimp only
      split
      · exact .nil p
      · split
        · exact .nil p
        · have htick := tick_path 0 hs
          have hsteps := htick.steps hs
          generalize p.tick env 0 = r at htick hsteps ⊢
          obtain ⟨q, e | u⟩ := r
          · exact (List.append_nil _).symm ▸ htick
          · exact htick.append (ih hsteps)

/-- Playing forward goes from step to step as well. -/
theorem forward_path (startedAt left : Nat) (hs : Steps env p) :
    ∃ l, Path env p l (Playback.forward env startedAt left p).1 :=
  ⟨_, forwardTrace_path startedAt left hs⟩

end

end Playhead.Playback
