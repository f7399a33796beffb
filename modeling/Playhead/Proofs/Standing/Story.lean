import Playhead.Proofs.Standing.Basic

/-!
The built-in commands neither read nor change what was read and what the player prefers, and a wait
ends as it would have ended at once.
-/

namespace Playhead

namespace ServiceSet

theorem mem_inScope_game {s : ServiceSet} {key : ServiceKey} (h : key ∈ s.inScope .game) :
    key ≠ .played ∧ key ≠ .preferences := by
  have hscope := (List.mem_filter.1 h).2
  constructor
  · rintro rfl
    cases hscope
  · rintro rfl
    cases hscope

theorem inScope_story (s : ServiceSet) : s.story.inScope .game = s.inScope .game := by
  have hscopes : s.story.scopesOf = s.scopesOf := by
    funext key
    cases key <;> rfl
  unfold inScope
  rw [hscopes]
  unfold keys
  simp only [List.filter_append]
  congr 2
  · congr 1
    cases s.played <;> simp [story, scopesOf]
  · cases s.preferences <;> simp [story, scopesOf]

end ServiceSet

namespace StateMap

theorem collectKeys_story (s : ServiceSet) {keys : List ServiceKey}
    (h : ∀ key ∈ keys, key ≠ .played ∧ key ≠ .preferences) :
    collectKeys s.story .game keys = collectKeys s .game keys := by
  induction keys with
  | nil => rfl
  | cons key rest ih =>
    have hrest := ih fun k hk => h k (List.mem_cons_of_mem _ hk)
    have hrecord : s.story.record .game key = s.record .game key := by
      have hkey := h key List.mem_cons_self
      cases key with
      | played => exact absurd rfl hkey.1
      | preferences => exact absurd rfl hkey.2
      | _ => rfl
    have hid : s.story.idOf key = s.idOf key := by cases key <;> rfl
    rw [collectKeys, collectKeys, hrest, hrecord, hid]

/-- The records of a game hold neither what was read nor what the player prefers. -/
theorem collect_story (s : ServiceSet) : collect s.story .game = collect s .game := by
  unfold collect
  rw [ServiceSet.inScope_story]
  exact collectKeys_story s fun _ hk => ServiceSet.mem_inScope_game hk

end StateMap

namespace Task

def IsHost : Task → Prop
  | .host _ => True
  | _ => False

theorem step_story {t : Task} (ht : ¬t.IsHost) (ctx : Context) (s : ServiceSet) :
    t.step ctx s.story = ((t.step ctx s).1, (t.step ctx s).2.story) := by
  obtain ⟨vars, log, choices, calls, played, preferences, host⟩ := s
  cases t with
  | host t => exact absurd trivial ht
  | print entry waits => cases log <;> rfl
  | jump target returning =>
    simp only [step, stepJump, ServiceSet.story]
    split
    · rfl
    · split
      · rfl
      · cases calls with
        | none => rfl
        | some calls =>
          dsimp only
          cases calls.push? ⟨ctx.spot.script, ctx.spot.index + 1⟩ <;> rfl
  | returnToCaller =>
    simp only [step, stepReturn, ServiceSet.story]
    cases calls with
    | none => rfl
    | some calls =>
      dsimp only
      cases calls.pop? <;> rfl
  | assign assignments =>
    simp only [step, stepAssign, ServiceSet.story]
    cases vars with
    | none => rfl
    | some vars =>
      dsimp only
      cases vars.apply assignments <;> rfl
  | branch =>
    have h : evalCondition ctx
        (ServiceSet.story ⟨vars, log, choices, calls, played, preferences, host⟩) =
        evalCondition ctx ⟨vars, log, choices, calls, played, preferences, host⟩ := by
      cases vars <;> rfl
    simp only [step, stepBranch, h]
    cases evalCondition ctx ⟨vars, log, choices, calls, played, preferences, host⟩ <;> rfl
  | addChoice o => cases choices <;> rfl
  | _ => rfl

/-- A task in flight that was started as another one: the same, or a wait that has grown shorter. -/
def Underway (started t : Task) : Prop :=
  t = started ∨ ∃ v w, started = .wait v ∧ t = .wait w ∧ w.input = v.input

/-- Whether a step is the last one of its command. -/
def IsLast {σ : Type} : Progress σ → Prop
  | .suspended _ _ => False
  | _ => True

theorem stepWait_skipping (ctx : Context) (hc : ctx.cancelled = false) (w : Wait) :
    stepWait { ctx with delta := 0, skipping := true } w =
      .completed { waitForInput := w.input } := by
  unfold stepWait
  cases w.time <;> simp [hc]

theorem stepWait_eq {ctx : Context} (hc : ctx.cancelled = false) (w : Wait) :
    stepWait ctx w = .completed { waitForInput := w.input } ∨
      ∃ time why, stepWait ctx w = .suspended (.wait { w with time := some time }) why := by
  unfold stepWait
  rw [hc]
  cases w.time with
  | none => exact .inl rfl
  | some time =>
    by_cases hr : (if ctx.skipping then 0 else time - ctx.delta) = 0
    · left
      simp [hr]
    · right
      refine ⟨if ctx.skipping then 0 else time - ctx.delta,
        .time (if ctx.skipping then 0 else time - ctx.delta), ?_⟩
      exact if_neg hr

/-- All that a step of a built-in task can come to. -/
inductive StepsTo (ctx : Context) (s : ServiceSet) : Task → Progress Task × ServiceSet → Prop where
  | fault (t : Task) (f : Fault) : StepsTo ctx s t (.faulted f, s)
  | print {l : TextLog} (hs : s.textLog = some l) (entry : LogEntry) (waits : Bool) :
      StepsTo ctx s (.print entry waits)
        (.completed { waitForInput := waits }, { s with textLog := some (l.push entry) })
  | wait (w : Wait) : StepsTo ctx s (.wait w) (.completed { waitForInput := w.input }, s)
  | suspend (h : ctx.cancelled = true ∨ ctx.skipping = false) (w v : Wait) (why : Suspension) :
      StepsTo ctx s (.wait w) (.suspended (.wait v) why, s)
  | goto (target : JumpTarget) :
      StepsTo ctx s (.jump target false) (.completed { flow := .jump target }, s)
  | gosub {k k' : CallStack} (hctx : ctx.transient = false) (hs : s.callStack = some k)
      (hk : k.push? ⟨ctx.spot.script, ctx.spot.index + 1⟩ = some k') (target : JumpTarget) :
      StepsTo ctx s (.jump target true)
        (.completed { flow := .jump target }, { s with callStack := some k' })
  | returnToCaller {k k' : CallStack} {f : Spot} (hs : s.callStack = some k)
      (hk : k.pop? = some (f, k')) : StepsTo ctx s .returnToCaller
        (.completed { flow := .jump (.spot f) }, { s with callStack := some k' })
  | assign {v v' : VariableStore} {assignments : List Assignment} (hs : s.variableStore = some v)
      (ha : v.apply assignments = .ok v') :
      StepsTo ctx s (.assign assignments) (.completed {}, { s with variableStore := some v' })
  | branch {taken : Bool} (h : evalCondition ctx s = .ok taken) :
      StepsTo ctx s .branch (.completed { flow := .branch taken }, s)
  | takeBranch : StepsTo ctx s .takeBranch (.completed { flow := .branch true }, s)
  | endBlock : StepsTo ctx s .endBlock (.completed {}, s)
  | stop : StepsTo ctx s .stop (.completed { flow := .stop }, s)
  | addChoice {k : Choices} (hs : s.choices = some k) (o : ChoiceOption) :
      StepsTo ctx s (.addChoice o)
        (.completed { allowRollback := false }, { s with choices := some (k.add o) })
  | lock (allowed : Bool) :
      StepsTo ctx s (.lock allowed) (.completed { allowRollback := allowed }, s)

theorem stepsTo_wait (ctx : Context) (s : ServiceSet) (w : Wait) :
    StepsTo ctx s (.wait w) (stepWait ctx w, s) := by
  unfold stepWait
  cases hcancelled : ctx.cancelled with
  | true => exact .suspend (.inl hcancelled) w w _
  | false =>
    cases htime : w.time with
    | none => exact .wait w
    | some time =>
      cases hskip : ctx.skipping with
      | true => exact .wait w
      | false =>
        simp only [Bool.false_eq_true, if_false]
        split
        · exact .wait w
        · exact .suspend (.inr hskip) w _ _

theorem stepsTo_step {t : Task} (ht : ¬t.IsHost) (ctx : Context) (s : ServiceSet) :
    StepsTo ctx s t (t.step ctx s) := by
  cases t with
  | host t => exact absurd trivial ht
  | print entry waits =>
    simp only [step, stepPrint]
    cases hs : s.textLog with
    | none => exact .fault _ _
    | some l => exact .print hs entry waits
  | wait w => exact stepsTo_wait ctx s w
  | jump target returning =>
    cases returning with
    | false => exact .goto target
    | true =>
      simp only [step, stepJump, Bool.not_true, Bool.false_eq_true, if_false]
      cases hctx : ctx.transient with
      | true => exact .fault _ _
      | false =>
        cases hs : s.callStack with
        | none => exact .fault _ _
        | some k =>
          simp only [Bool.false_eq_true, if_false]
          cases hk : k.push? ⟨ctx.spot.script, ctx.spot.index + 1⟩ with
          | none => exact .fault _ _
          | some k' => exact .gosub hctx hs hk target
  | returnToCaller =>
    simp only [step, stepReturn]
    cases hs : s.callStack with
    | none => exact .fault _ _
    | some k =>
      simp only
      cases hk : k.pop? with
      | none => exact .fault _ _
      | some r => exact .returnToCaller hs hk
  | assign assignments =>
    simp only [step, stepAssign]
    cases hs : s.variableStore with
    | none => exact .fault _ _
    | some v =>
      simp only
      cases ha : v.apply assignments with
      | error e => exact .fault _ _
      | ok v' => exact .assign hs ha
  | branch =>
    simp only [step, stepBranch]
    cases h : evalCondition ctx s with
    | error f => exact .fault _ f
    | ok taken => exact .branch h
  | takeBranch => exact .takeBranch
  | endBlock => exact .endBlock
  | stop => exact .stop
  | addChoice o =>
    simp only [step, stepChoice]
    cases hs : s.choices with
    | none => exact .fault _ _
    | some k => exact .addChoice hs o
  | lock allowed => exact .lock allowed

theorem isLast_step {t : Task} (ht : ¬t.IsHost) (hw : ∀ w, t ≠ .wait w) (ctx : Context)
    (s : ServiceSet) : IsLast (t.step ctx s).1 := by
  have h := stepsTo_step ht ctx s
  generalize t.step ctx s = r at h ⊢
  cases h with
  | suspend h w v why => exact absurd rfl (hw w)
  | _ => exact trivial

/-- A step of a built-in command changes nothing, or it is the last one and ends as the first one
would have ended while skipping. -/
theorem step_underway {started t : Task} (hs : ¬started.IsHost) (ht : started.Underway t)
    (ctx : Context) (hc : ctx.cancelled = false) (s : ServiceSet) :
    (∃ rest why, t.step ctx s = (.suspended rest why, s) ∧ started.Underway rest) ∨
      IsLast (t.step ctx s).1 ∧
        t.step ctx s = started.step { ctx with delta := 0, skipping := true } s := by
  have hwait : ∀ v w : Wait, w.input = v.input →
      (∃ rest why, (Task.wait w).step ctx s = (.suspended rest why, s) ∧
          (Task.wait v).Underway rest) ∨
        IsLast ((Task.wait w).step ctx s).1 ∧ (Task.wait w).step ctx s =
          (Task.wait v).step { ctx with delta := 0, skipping := true } s := by
    intro v w hi
    rcases stepWait_eq hc w with h | ⟨time, why, h⟩
    · right
      have hstep : (Task.wait w).step ctx s = (.completed { waitForInput := w.input }, s) :=
        congrArg (·, s) h
      refine ⟨hstep ▸ trivial, hstep.trans ?_⟩
      rw [hi]
      exact (congrArg (·, s) (stepWait_skipping ctx hc v)).symm
    · left
      exact ⟨_, why, congrArg (·, s) h, .inr ⟨v, _, rfl, rfl, hi⟩⟩
  rcases ht with rfl | ⟨v, w, rfl, rfl, hi⟩
  · by_cases hw : ∃ w, t = .wait w
    · obtain ⟨w, rfl⟩ := hw
      exact hwait w w rfl
    · right
      refine ⟨isLast_step hs (fun w h => hw ⟨w, h⟩) ctx s, ?_⟩
      cases t with
      | host t => exact absurd trivial hs
      | wait w => exact absurd ⟨w, rfl⟩ hw
      | _ => rfl
  · exact hwait v w hi

end Task

end Playhead
