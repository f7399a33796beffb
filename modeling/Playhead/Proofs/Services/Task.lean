import Mathlib.Logic.Relation
import Playhead.Proofs.Script.Registered
import Playhead.Proofs.Services.Shape
import Playhead.Proofs.Standing.Builtin

/-!
What a command in flight does to the services. The built-in ones leave the same services and change
little of what these hold: the call stack, the options that are pending, the register of what was
read and the entries of the text log are each touched by few of them.
-/

namespace Playhead

namespace Task

/-- What a task becomes by steps after which it is still in flight. -/
def Stems : Task → Task → Prop :=
  Relation.ReflTransGen fun t u => ∃ ctx s why s', t.step ctx s = (.suspended u why, s')

/-- A task that leaves the same services, whatever becomes of it. -/
def Tame (t : Task) : Prop :=
  ∀ u, t.Stems u → ∀ s, (u.cancel s).shape = s.shape ∧ ∀ ctx, (u.step ctx s).2.shape = s.shape

/-- A task that can be dropped without a trace. -/
def Quiet (t : Task) : Prop :=
  ∀ u, t.Stems u → ∀ s, u.cancel s = s

variable {t u : Task} {ctx : Context} {s s' : ServiceSet} {why : Suspension}

theorem Tame.suspended (ht : t.Tame) (h : t.step ctx s = (.suspended u why, s')) : u.Tame :=
  fun v hv => ht v (hv.head ⟨ctx, s, why, s', h⟩)

theorem Quiet.stems (ht : t.Quiet) (h : t.Stems u) : u.Quiet :=
  fun v hv => ht v (h.trans hv)

/-- Only waits suspend among the built-in tasks. -/
theorem exists_wait_of_suspended (ht : ¬t.IsHost) (h : t.step ctx s = (.suspended u why, s')) :
    ∃ w, u = .wait w := by
  have hstep := stepsTo_step ht ctx s
  rw [h] at hstep
  cases hstep with
  | suspend _ w v => exact ⟨v, rfl⟩

theorem not_isHost_of_stems (ht : ¬t.IsHost) (h : t.Stems u) : ¬u.IsHost := by
  induction h with
  | refl => exact ht
  | tail _ hstep ih =>
    obtain ⟨ctx, s, why, s', hstep⟩ := hstep
    obtain ⟨w, rfl⟩ := exists_wait_of_suspended ih hstep
    exact id

theorem shape_step (ht : ¬t.IsHost) (ctx : Context) (s : ServiceSet) :
    (t.step ctx s).2.shape = s.shape := by
  have h := stepsTo_step ht ctx s
  generalize t.step ctx s = r at h ⊢
  obtain ⟨vars, log, choices, calls, played, preferences, host⟩ := s
  cases h with
  | print hs | gosub _ hs | returnToCaller hs | assign hs | addChoice hs =>
    cases hs
    rfl
  | _ => rfl

theorem cancel_eq (ht : ¬t.IsHost) (s : ServiceSet) : t.cancel s = s := by
  cases t <;> first | rfl | exact absurd trivial ht

theorem tame_of_not_isHost (ht : ¬t.IsHost) : t.Tame :=
  fun _ hu s => have h := not_isHost_of_stems ht hu
    ⟨congrArg _ (cancel_eq h s), fun ctx => shape_step h ctx s⟩

theorem quiet_of_not_isHost (ht : ¬t.IsHost) : t.Quiet :=
  fun _ hu s => cancel_eq (not_isHost_of_stems ht hu) s

end Task

namespace Registry

/-- A registry all of whose commands start tasks of a kind. -/
def Starts (r : Registry) (P : Task → Prop) : Prop :=
  ∀ name h c t, r.get? name = some h → h.begin c = .ok t → P t

theorem starts_registerAll {P : Task → Prop} {l : List Handler} {r : Registry}
    (h : builtin.registerAll l = .ok r) (hP : ∀ t, ¬t.IsHost → P t)
    (hl : ∀ k ∈ l, ∀ c t, k.begin c = .ok t → P t) : r.Starts P := by
  intro name k c t hget hbegin
  rw [registerAll_eq_ok h] at hget
  rcases List.mem_append.1 (mem_of_get? hget) with hk | hk
  · exact hP t (Builtin.starts_of_begin hk hbegin).not_isHost
  · exact hl k hk c t hbegin

end Registry

namespace Task

/-- A task that leaves a part of the services as it is, whatever becomes of it. -/
def Spares {α : Type} (part : ServiceSet → α) (t : Task) : Prop :=
  ∀ u, t.Stems u → ∀ s, part (u.cancel s) = part s ∧ ∀ ctx, part (u.step ctx s).2 = part s

/-- A built-in task, or one of the host that leaves a part of the services as it is. -/
def Respects {α : Type} (part : ServiceSet → α) (t : Task) : Prop :=
  t.IsHost → t.Spares part

/-- A task that ends no property of the services when it is dropped or stepped beside the main
script. -/
def KeepsAside (I : ServiceSet → Prop) (t : Task) : Prop :=
  ∀ u, t.Stems u → ∀ s, I s → I (u.cancel s) ∧
    ∀ ctx : Context, ctx.transient = true → I (u.step ctx s).2

variable {α : Type} {part : ServiceSet → α} {I : ServiceSet → Prop} {t u : Task} {ctx : Context}
  {s : ServiceSet}

theorem Spares.stems (ht : t.Spares part) (h : t.Stems u) : u.Spares part :=
  fun v hv => ht v (h.trans hv)

theorem Respects.stems (ht : t.Respects part) (h : t.Stems u) : u.Respects part := by
  intro hu
  by_cases hhost : t.IsHost
  · exact (ht hhost).stems h
  · exact absurd hu (not_isHost_of_stems hhost h)

theorem Respects.cancel (ht : t.Respects part) (s : ServiceSet) : part (t.cancel s) = part s := by
  by_cases hhost : t.IsHost
  · exact (ht hhost t .refl s).1
  · rw [cancel_eq hhost]

theorem KeepsAside.stems (ht : t.KeepsAside I) (h : t.Stems u) : u.KeepsAside I :=
  fun v hv => ht v (h.trans hv)

/-- A built-in task in flight is the one that was started, or a wait. -/
theorem eq_or_wait_of_stems (ht : ¬t.IsHost) (h : t.Stems u) : u = t ∨ ∃ w, u = .wait w := by
  induction h with
  | refl => exact .inl rfl
  | tail hstems hstep _ =>
    obtain ⟨ctx, s, why, s', hstep⟩ := hstep
    exact .inr (exists_wait_of_suspended (not_isHost_of_stems ht hstems) hstep)

/-- A built-in task has nothing to keep but waits, and what it is itself. -/
theorem keepsAside_of_not_isHost (ht : ¬t.IsHost)
    (h : ∀ s, I s → ∀ ctx : Context, ctx.transient = true → I (t.step ctx s).2) :
    t.KeepsAside I := by
  intro u hu s hs
  refine ⟨?_, fun ctx hctx => ?_⟩
  · rwa [cancel_eq (not_isHost_of_stems ht hu)]
  · obtain rfl | ⟨w, rfl⟩ := eq_or_wait_of_stems ht hu
    · exact h s hs ctx hctx
    · exact hs

/-- What a property says of a part alone is kept by all that spares the part. -/
theorem Spares.keepsAside (ht : t.Spares part)
    (hI : ∀ s s' : ServiceSet, part s' = part s → I s → I s') : t.KeepsAside I :=
  fun u hu s hs => ⟨hI s _ (ht u hu s).1 hs, fun ctx _ => hI s _ ((ht u hu s).2 ctx) hs⟩

/-- All that a step of a built-in task can leave of the services. -/
inductive Leaves (t : Task) (ctx : Context) (s : ServiceSet) :
    Progress Task × ServiceSet → Prop where
  | same (r : Progress Task) : Leaves t ctx s (r, s)
  | logs {l : TextLog} (hs : s.textLog = some l) (entry : LogEntry) (r : Progress Task) :
      Leaves t ctx s (r, { s with textLog := some (l.push entry) })
  | calls {target : JumpTarget} {k k' : CallStack} (ht : t = .jump target true)
      (hctx : ctx.transient = false) (hs : s.callStack = some k)
      (hk : k.push? ⟨ctx.spot.script, ctx.spot.index + 1⟩ = some k') :
      Leaves t ctx s (.completed { flow := .jump target }, { s with callStack := some k' })
  | returns {k k' : CallStack} {f : Spot} (ht : t = .returnToCaller) (hs : s.callStack = some k)
      (hk : k.pop? = some (f, k')) :
      Leaves t ctx s (.completed { flow := .jump (.spot f) }, { s with callStack := some k' })
  | assigns {v v' : VariableStore} (hs : s.variableStore = some v) (r : Progress Task) :
      Leaves t ctx s (r, { s with variableStore := some v' })
  | offers {k : Choices} (hs : s.choices = some k) (o : ChoiceOption) (r : Progress Task) :
      Leaves t ctx s (r, { s with choices := some (k.add o) })

theorem leaves_step (ht : ¬t.IsHost) (ctx : Context) (s : ServiceSet) :
    t.Leaves ctx s (t.step ctx s) := by
  have h := stepsTo_step ht ctx s
  generalize t.step ctx s = r at h ⊢
  cases h with
  | print hs entry waits => exact .logs hs entry _
  | gosub hctx hs hk target => exact .calls rfl hctx hs hk
  | returnToCaller hs hk => exact .returns rfl hs hk
  | assign hs ha => exact .assigns hs _
  | addChoice hs o => exact .offers hs o _
  | _ => exact .same _

/-- No command writes to the register of what was read; playback itself does. -/
theorem Respects.played_step (ht : t.Respects (·.played)) (ctx : Context) (s : ServiceSet) :
    (t.step ctx s).2.played = s.played := by
  by_cases hhost : t.IsHost
  · exact (ht hhost t .refl s).2 ctx
  · have h := leaves_step hhost ctx s
    generalize t.step ctx s = r at h ⊢
    cases h <;> rfl

/-- Beside the main script a command of it takes frames off the call stack at most. -/
theorem Respects.frames_step (ht : t.Respects (·.callStack)) (hctx : ctx.transient = true)
    {k : CallStack} (hs : s.callStack = some k) :
    ∃ k', (t.step ctx s).2.callStack = some k' ∧ ∀ f ∈ k'.frames, f ∈ k.frames := by
  by_cases hhost : t.IsHost
  · exact ⟨k, ((ht hhost t .refl s).2 ctx).trans hs, fun _ hf => hf⟩
  · have h := leaves_step hhost ctx s
    generalize t.step ctx s = r at h ⊢
    cases h with
    | calls ht hctx' => cases hctx.symm.trans hctx'
    | @returns k₁ k₂ f ht hs' hk =>
      cases hs.symm.trans hs'
      obtain ⟨g, -, hk⟩ := Option.map_eq_some_iff.1 hk
      cases hk
      exact ⟨_, rfl, fun _ hf => List.dropLast_subset _ hf⟩
    | _ => exact ⟨k, hs, fun _ hf => hf⟩

/-- Beside the main script only a return takes a frame off the call stack. -/
theorem Respects.keepsAside_callStack (ht : t.Respects (·.callStack)) (hne : t ≠ .returnToCaller)
    (calls : Option CallStack) : t.KeepsAside fun s => s.callStack = calls := by
  by_cases hhost : t.IsHost
  · exact (ht hhost).keepsAside fun s s' heq hs => heq.trans hs
  · refine keepsAside_of_not_isHost hhost fun s hs ctx hctx => ?_
    have h := leaves_step hhost ctx s
    generalize t.step ctx s = r at h ⊢
    cases h with
    | calls ht hctx' => cases hctx.symm.trans hctx'
    | returns ht => exact absurd ht hne
    | _ => exact hs

/-- Built-in commands only add to the options that are pending. -/
theorem keepsAside_pending (ht : ¬t.IsHost) (l : List ChoiceOption) :
    t.KeepsAside fun s => l <+: s.pendingChoices := by
  refine keepsAside_of_not_isHost ht fun s hs ctx _ => ?_
  have h := leaves_step ht ctx s
  generalize t.step ctx s = r at h ⊢
  cases h with
  | @offers k hk o r =>
    have hpending : s.pendingChoices = k.pending := by
      unfold ServiceSet.pendingChoices
      rw [hk]
      rfl
    rw [hpending] at hs
    exact hs.trans (List.prefix_append _ _)
  | _ => exact hs

end Task

/-- Whether there is a text log, which starts with some entries. -/
def ServiceSet.Logs (l : List LogEntry) (s : ServiceSet) : Prop :=
  ∃ log, s.textLog = some log ∧ l <+: log.entries

namespace ServiceSet

variable {l : List LogEntry} {s t : ServiceSet}

theorem Logs.congr (hs : s.Logs l) (h : t.textLog = s.textLog) : t.Logs l := by
  obtain ⟨log, hlog, hl⟩ := hs
  exact ⟨log, h.trans hlog, hl⟩

end ServiceSet

namespace Task

/-- A task that leaves all entries in the text log where they are, whatever becomes of it. -/
def Appends (t : Task) : Prop :=
  ∀ u, t.Stems u → ∀ l s, s.Logs l → (u.cancel s).Logs l ∧ ∀ ctx, (u.step ctx s).2.Logs l

variable {t u : Task}

theorem Appends.stems (ht : t.Appends) (h : t.Stems u) : u.Appends :=
  fun v hv => ht v (h.trans hv)

theorem logs_step (ht : ¬t.IsHost) {l : List LogEntry} {s : ServiceSet} (hs : s.Logs l)
    (ctx : Context) : (t.step ctx s).2.Logs l := by
  have h := leaves_step ht ctx s
  generalize t.step ctx s = r at h ⊢
  cases h with
  | @logs log hlog entry r =>
    obtain ⟨log', hlog', hl⟩ := hs
    cases hlog.symm.trans hlog'
    refine ⟨_, rfl, ?_⟩
    rw [TextLog.entries_push]
    exact hl.trans (List.prefix_append _ _)
  | _ => exact hs

theorem appends_of_not_isHost (ht : ¬t.IsHost) : t.Appends := by
  intro u hu l s hs
  have hbuiltin := not_isHost_of_stems ht hu
  exact ⟨(cancel_eq hbuiltin s).symm ▸ hs, logs_step hbuiltin hs⟩

end Task

end Playhead
