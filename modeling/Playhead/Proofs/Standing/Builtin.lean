import Playhead.Command.Builtin
import Playhead.Proofs.Except
import Playhead.Proofs.Standing.Story

/-!
What the built-in commands have in common: which tasks they start and how these end.
-/

namespace Playhead

namespace Builtin

/-- The tasks that each kind of built-in command starts. -/
inductive Starts : Handler → Task → Prop where
  | print (entry : LogEntry) (waits : Bool) : Starts Builtin.print (.print entry waits)
  | wait (w : Wait) : Starts Builtin.wait (.wait w)
  | goto (target : JumpTarget) : Starts Builtin.goto (.jump target false)
  | gosub (target : JumpTarget) : Starts Builtin.gosub (.jump target true)
  | returnToCaller : Starts Builtin.returnToCaller .returnToCaller
  | set (assignments : List Assignment) : Starts Builtin.set (.assign assignments)
  | ifBlock : Starts Builtin.ifBlock .branch
  | elseifBranch : Starts Builtin.elseifBranch .branch
  | elseBranch : Starts Builtin.elseBranch .takeBranch
  | endBlock : Starts Builtin.endBlock .endBlock
  | stop : Starts Builtin.stop .stop
  | choice (o : ChoiceOption) : Starts Builtin.choice (.addChoice o)
  | lock (allowed : Bool) : Starts Builtin.lock (.lock allowed)

/-- Where a jump that is started leads. -/
theorem beginJump_eq_ok_iff {returning : Bool} {c : Command} {t : Task} :
    beginJump returning c = .ok t ↔ ∃ text target, c.text "target" = .ok (some text) ∧
      JumpTarget.parse? text = some target ∧ t = .jump target returning := by
  constructor
  · intro h
    obtain ⟨text, hread, h⟩ := exists_of_bind_ok h
    obtain ⟨found, htext, hfound⟩ := exists_of_bind_ok (exists_of_mapError_ok hread)
    split at hfound
    · cases hfound
      split at h
      · rename_i target hparse
        cases h
        exact ⟨text, target, htext, hparse, rfl⟩
      · cases h
    · cases hfound
  · rintro ⟨text, target, htext, hparse, rfl⟩
    have hread : Builtin.read (c.requireText "target") = .ok text := by
      unfold Command.requireText Command.required
      rw [htext]
      rfl
    unfold beginJump
    rw [hread]
    simp only [bind, Except.bind, hparse]

theorem exists_of_beginJump {returning : Bool} {c : Command} {t : Task}
    (h : beginJump returning c = .ok t) : ∃ target, t = .jump target returning := by
  obtain ⟨-, target, -, -, rfl⟩ := beginJump_eq_ok_iff.1 h
  exact ⟨target, rfl⟩

theorem starts_of_begin {h : Handler} (hm : h ∈ handlers) {c : Command} {t : Task}
    (hb : h.begin c = .ok t) : Starts h t := by
  simp only [handlers, List.mem_cons, List.not_mem_nil, or_false] at hm
  rcases hm with rfl | rfl | rfl | rfl | rfl | rfl | rfl | rfl | rfl | rfl | rfl | rfl | rfl
  · obtain ⟨text, -, hb⟩ := exists_of_bind_ok hb
    obtain ⟨author, -, hb⟩ := exists_of_bind_ok hb
    obtain ⟨waits, -, hb⟩ := exists_of_bind_ok hb
    cases hb
    exact .print _ _
  · obtain ⟨text, -, hb⟩ := exists_of_bind_ok hb
    split at hb
    · cases hb
      exact .wait _
    · cases hb
  · obtain ⟨target, rfl⟩ := exists_of_beginJump hb
    exact .goto target
  · obtain ⟨target, rfl⟩ := exists_of_beginJump hb
    exact .gosub target
  · cases hb
    exact .returnToCaller
  · obtain ⟨source, -, hb⟩ := exists_of_bind_ok hb
    cases ha : Assignment.parseAll source with
    | error e =>
      rw [ha] at hb
      cases hb
    | ok assignments =>
      rw [ha] at hb
      cases hb
      exact .set _
  · cases hb
    exact .ifBlock
  · cases hb
    exact .elseifBranch
  · cases hb
    exact .elseBranch
  · cases hb
    exact .endBlock
  · cases hb
    exact .stop
  · obtain ⟨text, -, hb⟩ := exists_of_bind_ok hb
    obtain ⟨goto, -, hb⟩ := exists_of_bind_ok hb
    obtain ⟨set, -, hb⟩ := exists_of_bind_ok hb
    obtain ⟨script, -, hb⟩ := exists_of_bind_ok hb
    cases hb
    exact .choice _
  · obtain ⟨allowed, -, hb⟩ := exists_of_bind_ok hb
    cases hb
    exact .lock _

variable {h : Handler} {t : Task}

theorem Starts.not_isHost (hs : Starts h t) : ¬t.IsHost := by
  cases hs <;> exact id

/-- How a command ends does not depend on what was read or preferred. -/
theorem outcome_story (hm : h ∈ handlers) (c : Command) (spot : Spot) (s : ServiceSet) :
    h.outcome c spot s.story =
      ((h.outcome c spot s).1, (h.outcome c spot s).2.story) := by
  unfold Handler.outcome
  cases hb : h.begin c with
  | error f => rfl
  | ok t =>
    simp only
    rw [Task.step_story (starts_of_begin hm hb).not_isHost]
    cases hr : t.step ⟨c, spot, 0, true, false, false⟩ s with
    | mk p after => cases p <;> rfl

theorem role_of_eligible (hm : h ∈ handlers) (he : h.eligible = true) : h.role = .none := by
  simp only [handlers, List.mem_cons, List.not_mem_nil, or_false] at hm
  rcases hm with rfl | rfl | rfl | rfl | rfl | rfl | rfl | rfl | rfl | rfl | rfl | rfl | rfl
  all_goals first | rfl | cases he

/-- The completion of a step, where a fault counts as the command's doing nothing. -/
def completionOf (role : BlockRole) : Progress Task → Completion
  | .completed done => done
  | .faulted _ => .ofFault role
  | .suspended _ _ => {}

/-- The last step of a command in flight gives its outcome. -/
theorem outcome_of_last {started : Task} {c : Command} (hb : h.begin c = .ok started)
    {ctx : Context} {spot : Spot} {s : ServiceSet} (hlast : Task.IsLast (t.step ctx s).1)
    (hstep : t.step ctx s = started.step ⟨c, spot, 0, true, false, false⟩ s) :
    h.outcome c spot s = (completionOf c.role (t.step ctx s).1, (t.step ctx s).2) := by
  unfold Handler.outcome
  rw [hb, hstep]
  rw [hstep] at hlast
  dsimp only
  cases hr : started.step ⟨c, spot, 0, true, false, false⟩ s with
  | mk r after =>
    rw [hr] at hlast
    cases r with
    | suspended rest why => exact absurd hlast id
    | _ => rfl

/-- How a built-in command can end, and what it leaves behind. A command that faults leaves
everything as it is. -/
inductive Ends (c : Command) (spot : Spot) (s : ServiceSet) :
    Handler → Completion → ServiceSet → Prop where
  | fault (h : Handler) : Ends c spot s h (.ofFault c.role) s
  | print {l : TextLog} (hs : s.textLog = some l) (e : LogEntry) (waits : Bool) :
    Ends c spot s Builtin.print { waitForInput := waits } { s with textLog := some (l.push e) }
  | wait (input : Bool) : Ends c spot s Builtin.wait { waitForInput := input } s
  | goto (target : JumpTarget) : Ends c spot s Builtin.goto { flow := .jump target } s
  | gosub {k k' : CallStack} (hs : s.callStack = some k)
      (hk : k.push? ⟨spot.script, spot.index + 1⟩ = some k') (target : JumpTarget) :
    Ends c spot s Builtin.gosub { flow := .jump target } { s with callStack := some k' }
  | returnToCaller {k k' : CallStack} {back : Spot} (hs : s.callStack = some k)
      (hk : k.pop? = some (back, k')) :
    Ends c spot s Builtin.returnToCaller { flow := .jump (.spot back) }
      { s with callStack := some k' }
  | set {v v' : VariableStore} {assignments : List Assignment} (hs : s.variableStore = some v)
      (ha : v.apply assignments = .ok v') :
    Ends c spot s Builtin.set {} { s with variableStore := some v' }
  | ifBlock (taken : Bool) : Ends c spot s Builtin.ifBlock { flow := .branch taken } s
  | elseifBranch (taken : Bool) : Ends c spot s Builtin.elseifBranch { flow := .branch taken } s
  | elseBranch : Ends c spot s Builtin.elseBranch { flow := .branch true } s
  | endBlock : Ends c spot s Builtin.endBlock {} s
  | stop : Ends c spot s Builtin.stop { flow := .stop } s
  | choice {k : Choices} (hs : s.choices = some k) (o : ChoiceOption) :
    Ends c spot s Builtin.choice { allowRollback := false } { s with choices := some (k.add o) }
  | lock (allowed : Bool) : Ends c spot s Builtin.lock { allowRollback := allowed } s

theorem ends_outcome (hm : h ∈ handlers) (c : Command) (spot : Spot) (s : ServiceSet) :
    Ends c spot s h (h.outcome c spot s).1 (h.outcome c spot s).2 := by
  unfold Handler.outcome
  cases hb : h.begin c with
  | error f => exact .fault h
  | ok t =>
    have hstarts := starts_of_begin hm hb
    have hstep := Task.stepsTo_step hstarts.not_isHost ⟨c, spot, 0, true, false, false⟩ s
    dsimp only
    generalize t.step ⟨c, spot, 0, true, false, false⟩ s = r at hstep ⊢
    cases hstep with
    | fault t f => exact .fault h
    | suspend hwaits w v why => exact hwaits.elim nofun nofun
    | print hs entry waits =>
      cases hstarts
      exact .print hs entry waits
    | wait w =>
      cases hstarts
      exact .wait w.input
    | goto target =>
      cases hstarts
      exact .goto target
    | gosub hctx hs hk target =>
      cases hstarts
      exact .gosub hs hk target
    | returnToCaller hs hk =>
      cases hstarts
      exact .returnToCaller hs hk
    | assign hs ha =>
      cases hstarts
      exact .set hs ha
    | @branch taken ht =>
      cases hstarts with
      | ifBlock => exact .ifBlock taken
      | elseifBranch => exact .elseifBranch taken
    | takeBranch =>
      cases hstarts
      exact .elseBranch
    | endBlock =>
      cases hstarts
      exact .endBlock
    | stop =>
      cases hstarts
      exact .stop
    | addChoice hs o =>
      cases hstarts
      exact .choice hs o
    | lock allowed =>
      cases hstarts
      exact .lock allowed

/-- Only the commands of conditional blocks take branches, and these take no snapshots. -/
theorem outcome_flow_ne_branch (hm : h ∈ handlers) (he : h.eligible = true) {c : Command}
    (hr : h.role = c.role) (spot : Spot) (s : ServiceSet) (taken : Bool) :
    (h.outcome c spot s).1.flow ≠ .branch taken := by
  have hnone : c.role = .none := hr ▸ role_of_eligible hm he
  have hends := ends_outcome hm c spot s
  generalize h.outcome c spot s = r at hends ⊢
  obtain ⟨done, after⟩ := r
  cases hends with
  | fault =>
    rw [hnone]
    exact nofun
  | ifBlock | elseifBranch | elseBranch => cases he
  | _ => exact nofun

/-- Only `stop` halts playback. -/
theorem eq_stop_of_flow (hm : h ∈ handlers) {c : Command} {spot : Spot} {s : ServiceSet}
    (hf : (h.outcome c spot s).1.flow = .stop) : h = Builtin.stop := by
  have hends := ends_outcome hm c spot s
  generalize h.outcome c spot s = r at hends hf
  obtain ⟨done, after⟩ := r
  cases hends with
  | fault => cases hrole : c.role <;> rw [hrole] at hf <;> cases hf
  | stop => rfl
  | _ => cases hf

/-- Only `choice` registers options. -/
theorem choices_outcome (hm : h ∈ handlers) (hne : h ≠ Builtin.choice) (c : Command) (spot : Spot)
    (s : ServiceSet) : (h.outcome c spot s).2.choices = s.choices := by
  have hends := ends_outcome hm c spot s
  generalize h.outcome c spot s = r at hends ⊢
  obtain ⟨done, after⟩ := r
  cases hends with
  | choice hs o => exact absurd rfl hne
  | _ => rfl

end Builtin

end Playhead
