import Playhead.Proofs.Motion.Deeds
import Playhead.Proofs.Services.Task

/-!
Moves that complete a `gosub` or a `return`: what they do to the call stack and where they go.
-/

namespace Playhead.Playback

/-- The script and the index of the `gosub` that a move completes by putting the place after it on
the call stack. -/
def Move.called? (m : Move) : Option (Document × Nat) :=
  match m.before.player.document, m.before.player.active, m.before.services.callStack with
  | some d, some ⟨i, .jump _ true, _⟩, some k =>
    match k.push? ⟨d.name, i + 1⟩ with
    | some k' => if m.after.services.callStack = some k' then some (d, i) else none
    | none => none
  | _, _, _ => none

/-- The place that a move takes off the call stack by completing a `return`. -/
def Move.returned? (m : Move) : Option Spot :=
  match m.before.player.active, m.before.services.callStack with
  | some ⟨_, .returnToCaller, _⟩, some k =>
    match k.pop? with
    | some (f, k') => if m.after.services.callStack = some k' then some f else none
    | none => none
  | _, _ => none

/-- The jump of a move is refused: playback stops with a fault. -/
def Move.Refused (m : Move) : Prop :=
  m.after.cursor.index = none ∧ ∃ message,
    m.after.scene.events = m.before.scene.events ++ [.stopped (.fault message)]

/-- Playback comes to an index of a script, past whose end it is over. -/
structure ComesTo (p : Playback) (d : Document) (i : Nat) : Prop where
  document : p.player.document = some d
  script : p.cursor.script = d.name
  revision : p.cursor.revision = d.revision
  index : p.cursor.index = if i < d.size then some i else none

/-- Whether a script is held in the revision that it had. -/
def HoldsStill (p : Playback) (c : Document) : Prop :=
  ∃ d, p.library.get? c.name = some d ∧ d.revision = c.revision

variable {env : Env} {p q : Playback} {m : Move} {d : Document} {i : Nat} {f : Spot}
  {k k' : CallStack}

theorem Move.returned?_eq_some (h : m.returned? = some f) :
    ∃ a k k', m.before.player.active = some a ∧ a.task = .returnToCaller ∧
      m.before.services.callStack = some k ∧ k.pop? = some (f, k') ∧
      m.after.services.callStack = some k' := by
  unfold returned? at h
  split at h
  · rename_i i eligible k ha hk
    split at h
    · rename_i f' k' hpop
      split at h
      · rename_i hafter
        cases h
        exact ⟨_, k, k', ha, rfl, hk, hpop, hafter⟩
      · cases h
    · cases h
  · cases h

theorem pop?_ne (h : k.pop? = some (f, k')) : k' ≠ k := by
  obtain ⟨g, hg, hk⟩ := Option.map_eq_some_iff.1 h
  cases hk
  intro heq
  have hlength := congrArg (fun k : CallStack => k.frames.length) heq
  have hne : k.frames ≠ [] := by
    intro hnil
    rw [hnil] at hg
    cases hg
  have hpos := List.length_pos_iff.2 hne
  simp only [List.length_dropLast] at hlength
  omega

/-- A jump to a place on the call stack leads to the script that is held under its name. -/
theorem resolveJump_spot (hs : Sited env p) {current : Document}
    (hd : p.player.document = some current) (hi : p.cursor.index ≠ none)
    (h : (p.resolveJump env (.spot f)).2 = .ok (d, i)) :
    i = f.index ∧ d.name = f.script ∧ f.index ≤ d.size ∧
      ∀ c, p.library.get? f.script = some c → c.revision = d.revision := by
  unfold resolveJump documentFor at h
  simp only [hd] at h
  split at h
  · cases h
  · rename_i found hfound
    obtain ⟨rfl, rfl, hle⟩ : found = d ∧ i = f.index ∧ f.index ≤ found.size := by
      split at h
      · cases h
      · rename_i hlt
        cases h
        exact ⟨rfl, rfl, Nat.le_of_not_lt hlt⟩
    split at hfound
    · rename_i hname
      cases hfound
      refine ⟨rfl, hname.symm, hle, fun c hc => ?_⟩
      obtain ⟨j, hj⟩ := Option.ne_none_iff_exists'.1 hi
      obtain ⟨c', hc', hrevision⟩ := hs.current.held _ j hd hj
      have hget : p.library.get? current.name = some c := hname ▸ hc
      cases hget.symm.trans hc'
      exact hrevision
    · split at hfound
      · rename_i hload
        cases hfound
        obtain ⟨-, hname, -⟩ := ScriptLibrary.Sound.load_reads hs.registry hs.read.library hload
        refine ⟨rfl, hname, hle, fun c hc => ?_⟩
        unfold ScriptLibrary.load at hload
        rw [hc] at hload
        cases hload
        rfl
      · cases hfound

theorem complete_refused (index : Nat) (c : Completion) (eligible : Bool) {e : JumpError}
    (hd : p.player.document = some d) (h : (p.follow env d index c.flow).2 = .error e) :
    (p.complete env index c eligible).1 =
      (p.follow env d index c.flow).1.stop (.fault e.message) := by
  unfold complete
  simp only [hd]
  generalize p.follow env d index c.flow = r at h ⊢
  obtain ⟨q, e' | place⟩ := r
  · cases h
    rfl
  · cases h

theorem complete_comesTo {c : Completion} {next : Document} {index : Nat} (eligible : Bool)
    (hd : p.player.document = some d) (ha : p.player.active = none)
    (h : (p.follow env d index c.flow).2 = .ok (next, i)) :
    (p.complete env index c eligible).1.ComesTo next i := by
  obtain ⟨s, b, hb⟩ : ∃ (s : RollbackStack) (b : Bearings),
      (p.complete env index c eligible).1.bearings =
        ({ b with stack := s } : Bearings).moveTo next i := by
    have hactive := (p.follow_frame env d index c.flow).2.trans ha
    unfold complete
    simp only [hd]
    generalize p.follow env d index c.flow = r at h hactive ⊢
    obtain ⟨q, e | place⟩ := r
    · cases h
    · cases h
      obtain ⟨-, s, hs⟩ := rests_lockNewest env .none hactive c.allowRollback
      dsimp only
      split
      · have hlocked : (q.lockNewest c.allowRollback).player.active = none :=
          (congrArg Player.active (q.lockNewest_frame c.allowRollback).2).trans hactive
        obtain ⟨-, t, ht⟩ := rests_capture env .none hlocked next i c
        refine ⟨t, (q.lockNewest c.allowRollback).bearings, ?_⟩
        rw [bearings_settle, bearings_moveTo, ht]
      · refine ⟨s, q.bearings, ?_⟩
        rw [bearings_settle, bearings_moveTo, hs]
  exact ⟨congrArg Bearings.document hb, congrArg Bearings.script hb,
    congrArg Bearings.revision hb, congrArg Bearings.index hb⟩

/-- A `return` that jumps is a step of the command in flight. -/
theorem Step.returned {a : ActiveCommand} (h : Step env p q) (ha : p.player.active = some a)
    (htask : a.task = .returnToCaller) (hk : p.services.callStack = some k)
    (hpop : k.pop? = some (f, k')) (hq : q.services.callStack = some k') :
    ∃ d, p.player.document = some d ∧ p.cursor.index ≠ none ∧
      q = ((p.released { p.services with callStack := some k' }).complete env a.index
        { flow := .jump (.spot f) } a.eligible).1 := by
  have hstays : q.services.callStack ≠ p.services.callStack := by
    rw [hk, hq]
    exact fun heq => pop?_ne hpop (Option.some.inj heq)
  cases h with
  | interrupt hc =>
    refine absurd ?_ hstays
    show p.cancelActive.services.callStack = _
    unfold cancelActive
    rw [ha]
    dsimp only
    rw [htask]
    rfl
  | leave delta => exact absurd (congrArg _ (p.services_leaveWait env delta)) hstays
  | goOn => exact absurd (congrArg _ p.services_continueInput) hstays
  | reach hb hidle => cases hidle.symm.trans ha
  | arrive hrun hidle hreach => cases hidle.symm.trans ha
  | @work a' hrun ha' delta =>
    cases ha.symm.trans ha'
    obtain ⟨⟨d, hd⟩, -, i, hi⟩ := isRunning_iff.1 hrun
    refine ⟨d, hd, hi ▸ Option.some_ne_none i, ?_⟩
    cases hc : d.command? a.index with
    | none =>
      rw [stepActive_of_no_command hd hc] at hstays
      exact absurd rfl hstays
    | some c =>
      rw [stepActive_eq hd hc, htask]
      simp only [Task.step, Task.stepReturn, hk, hpop]
      rw [fst_finished]

/-- A `return` is refused, or goes to the place that it takes off the call stack, in the script that
is held. -/
theorem Step.comesBack (hs : Sited env p) (h : Step env p q)
    (hf : Move.returned? ⟨p, q⟩ = some f) :
    Move.Refused ⟨p, q⟩ ∨ ∃ d, d.name = f.script ∧ q.ComesTo d f.index ∧
      ∀ c, p.library.get? f.script = some c → c.revision = d.revision := by
  obtain ⟨a, k, k', ha, htask, hk, hpop, hafter⟩ := Move.returned?_eq_some hf
  obtain ⟨current, hd, hi, rfl⟩ := h.returned ha htask hk hpop hafter
  obtain ⟨u, hu⟩ : ∃ u, u = p.released { p.services with callStack := some k' } := ⟨_, rfl⟩
  have hud : u.player.document = some current := by
    rw [hu]
    exact hd
  have hidle : u.player.active = none := by
    rw [hu]
    rfl
  have hsited : Sited env u := by
    rw [hu]
    exact hs.turns (w := .none) (.one .drop)
  have hcursor : u.cursor.index ≠ none := by
    rw [hu]
    exact hi
  have hlibrary : u.library = p.library := by rw [hu]; rfl
  have hscene : u.scene.events = p.scene.events := by rw [hu]; rfl
  rw [← hu]
  obtain ⟨l, hl, -⟩ := follow_eq env hud a.index (.jump (.spot f))
  cases hfound : (u.resolveJump env (.spot f)).2 with
  | error e =>
    refine .inl ?_
    have hend := complete_refused a.index { flow := .jump (.spot f) } a.eligible hud hfound
    unfold Move.Refused
    dsimp only at hend ⊢
    rw [hend, hl, stop_of_idle (by exact hidle)]
    refine ⟨rfl, e.message, ?_⟩
    rw [show (_ : Playback).scene.events = _ from Scene.events_emit _ _]
    exact congrArg (· ++ _) hscene
  | ok place =>
    obtain ⟨d, i⟩ := place
    obtain ⟨rfl, hname, -, hheld⟩ := resolveJump_spot hsited hud hcursor hfound
    refine .inr ⟨d, hname, ?_, fun c hc => hheld c (hlibrary ▸ hc)⟩
    exact complete_comesTo a.eligible hud hidle hfound

/-- Every place on the call stack was put there by a `gosub` in one of some moves. -/
def Framed : List Move → ServiceSet → Prop :=
  Traced (·.callStack) (fun k f => f ∈ k.frames) fun g f =>
    ∃ c i, g.called? = some (c, i) ∧ f = ⟨c.name, i + 1⟩

variable {H : List Move}

theorem callStack_trackRead (env : Env) (p : Playback) (spot : Spot) :
    (p.trackRead env spot).services.callStack = p.services.callStack := by
  unfold trackRead
  split
  · rfl
  · dsimp only
    split
    · rw [services_setSkip]
      rfl
    · rfl

/-- A step leaves places on the call stack that were there, and the one after a `gosub` that it
completes. -/
theorem Step.framed (h : Step env p q)
    (ha : ∀ a, p.player.active = some a → a.task.Respects (·.callStack))
    (hp : Framed H p.services) : Framed (H ++ [⟨p, q⟩]) q.services := by
  have hkeep : ∀ {s : ServiceSet}, q.services = s → s.callStack = p.services.callStack →
      Framed (H ++ [⟨p, q⟩]) q.services := fun hq hs =>
    (hp.more (List.subset_append_left _ _)).congr (hq ▸ hs)
  cases h.deed with
  | rests h => exact hkeep h.services rfl
  | @drops a hactive h => exact hkeep h.services ((ha a hactive).cancel p.services)
  | starts hd hi hc h =>
    exact hkeep h.services (callStack_trackRead env _ _)
  | @works d a c delta hd hactive hc h =>
    have hservices := h.services
    by_cases hhost : a.task.IsHost
    · exact hkeep hservices ((ha a hactive hhost _ .refl p.services).2 _)
    · have hleaves := Task.leaves_step hhost ⟨c, ⟨d.name, a.index⟩, delta, p.cursor.skipping, false,
        p.scopes.isCancelled p.player.scope⟩ p.services
      generalize a.task.step _ p.services = r at hleaves hservices
      cases hleaves with
      | same | logs | assigns | offers => exact hkeep hservices rfl
      | @returns k k' f ht hk hpop =>
        obtain ⟨g, -, hk'⟩ := Option.map_eq_some_iff.1 hpop
        cases hk'
        refine (hp.more (List.subset_append_left _ _)).of_subset hk
          (congrArg ServiceSet.callStack hservices) fun f hf => List.dropLast_subset _ hf
      | @calls target k k' ht hctx hk hpush =>
        have hafter : q.services.callStack = some k' := congrArg ServiceSet.callStack hservices
        have hcalled : Move.called? ⟨p, q⟩ = some (d, a.index) := by
          obtain ⟨i, task, eligible⟩ := a
          cases ht
          simp only [Move.called?, hd, hactive, hk, hpush, hafter, if_true]
        obtain ⟨k₀, hk₀, hall⟩ := hp
        cases hk.symm.trans hk₀
        refine ⟨k', hafter, fun f (hf : f ∈ k'.frames) => ?_⟩
        have hframes : k'.frames = k.frames ++ [⟨d.name, a.index + 1⟩] := by
          unfold CallStack.push? at hpush
          split at hpush
          · cases hpush
            rfl
          · cases hpush
        rw [hframes] at hf
        rcases List.mem_append.1 hf with hf | hf
        · obtain ⟨g, hg, hcalls⟩ := hall f hf
          exact ⟨g, List.mem_append_left _ hg, hcalls⟩
        · exact ⟨⟨p, q⟩, List.mem_append_right _ List.mem_cons_self, d, a.index, hcalled,
            List.mem_singleton.1 hf⟩

end Playhead.Playback
