import Playhead.Proofs.Engine.Acts
import Playhead.Proofs.Motion.Deeds
import Playhead.Proofs.Motion.Moves
import Playhead.Proofs.Wings.Strides

/-!
A tick is bounded whatever the scripts do, also if they jump in circles for ever.

Looking for the next command to start has no bound of its own; it ends because every command that
is passed moves the cursor on. All else is bounded by what is counted on the way.
-/

namespace Playhead

/-- Whether an event tells of the start of a command. -/
def Event.isStart : Event → Bool
  | .commandExecuted _ _ => true
  | _ => false

namespace Playback

/-- One round of looking for the next command to start: one is passed, or the search is over. -/
def look (env : Env) (p : Playback) : Playback ⊕ (Playback × Except JumpError Begin) :=
  match p.cursor.index, p.player.document with
  | some i, some d =>
    match d.command? i with
    | none => .inr (p.endOfScript .endOfScript, .ok .idle)
    | some c =>
      match p.checkForward d i with
      | (p, true) => .inr (p, .ok .idle)
      | (p, false) =>
        match d.entry i p.player.arrivedByBranch p.services with
        | .skip next => .inl (p.entering.withCursor { p.cursor with index := some next })
        | .run =>
          match env.source.registry.get? c.name with
          | some h => .inr (p.entering.begin env d i c h)
          | none =>
            let p := p.entering.reportFault ⟨d.name, i⟩ ("unknown command `" ++ c.name ++ "`")
            .inl (p.withCursor { p.cursor with index := some (i + 1) })
  | _, _ => .inr (p, .ok .idle)

/-- How looking for the next command ends, however many are passed. -/
inductive Finds (env : Env) : Playback → Playback × Except JumpError Begin → Prop where
  | ends {p : Playback} {r : Playback × Except JumpError Begin} (h : p.look env = .inr r) :
      Finds env p r
  | passes {p q : Playback} {r : Playback × Except JumpError Begin} (h : p.look env = .inl q)
      (tail : Finds env q r) : Finds env p r

/-- At most so many commands were started since. -/
def Starts (n : Nat) (p q : Playback) : Prop :=
  ∃ l, q.scene.events = p.scene.events ++ l ∧ l.countP Event.isStart ≤ n

variable {env : Env} {p q r : Playback} {d : Document} {i m n : Nat} {a : ActiveCommand}

theorem beginWithin_succ (env : Env) (n : Nat) (p : Playback) :
    p.beginWithin env (n + 1) = (p.look env).elim (beginWithin env n) id := by
  rw [beginWithin, look]
  cases hi : p.cursor.index with
  | none => rfl
  | some i =>
    cases hd : p.player.document with
    | none => rfl
    | some d =>
      dsimp only
      cases hc : d.command? i with
      | none => rfl
      | some c =>
        dsimp only
        generalize p.checkForward d i = r
        obtain ⟨q, _ | _⟩ := r
        · dsimp only
          rw [show (({ q with player := { q.player with arrivedByBranch := false } } : Playback)
            ).services = q.services from rfl]
          cases d.entry i q.player.arrivedByBranch q.services with
          | skip next => rfl
          | run => cases env.source.registry.get? c.name <;> rfl
        · rfl

/-- What is passed lies before the place where the search goes on. -/
theorem look_passes {registry : Registry} (hd : p.player.document = some d)
    (hstaged : d.Staged registry) (hi : p.cursor.index = some i) (h : p.look env = .inl q) :
    i < d.size ∧ q.player.document = some d ∧ ∃ next, i < next ∧ q.cursor.index = some next := by
  unfold look at h
  simp only [hi, hd] at h
  split at h
  · cases h
  · rename_i c hc
    have hsize : i < d.size := (Array.getElem?_eq_some_iff.1 hc).1
    have hforward := p.bearings_checkForward d i
    generalize p.checkForward d i = r at hforward h
    obtain ⟨u, _ | _⟩ := r
    · have hud : u.player.document = some d := (congrArg Bearings.document hforward).trans hd
      dsimp only at h
      split at h
      · rename_i next he
        cases h
        exact ⟨hsize, hud, next, entry_skip_lt hstaged he, rfl⟩
      · split at h
        · cases h
        · cases h
          exact ⟨hsize, hud, i + 1, Nat.lt_succ_self i, rfl⟩
    · cases h

/-- A search ends before it has passed all that is left of the script. -/
theorem finds_beginWithin {registry : Registry} (hd : p.player.document = some d)
    (hstaged : d.Staged registry) (hi : p.cursor.index = some i) (hn : d.size - i < n) :
    Finds env p (p.beginWithin env n) := by
  induction n generalizing p i with
  | zero => cases hn
  | succ n ih =>
    rw [beginWithin_succ]
    cases h : p.look env with
    | inr r => exact .ends h
    | inl q =>
      obtain ⟨hsize, hqd, next, hnext, hqi⟩ := look_passes hd hstaged hi h
      exact .passes h (ih hqd hqi (by omega))

theorem look_of_stopped (h : p.cursor.index = none ∨ p.player.document = none) :
    p.look env = .inr (p, .ok .idle) := by
  unfold look
  rcases h with h | h
  · rw [h]
  · rw [h]
    split
    · rename_i hnone
      cases hnone
    · rfl

/-- Looking for the next command to start ends in every script that was read. -/
theorem Steps.finds (hp : Steps env p) : Finds env p (p.beginNext env) := by
  have hstopped : p.cursor.index = none ∨ p.player.document = none →
      Finds env p (p.beginNext env) := by
    intro h
    have hlook : p.look env = .inr (p, .ok .idle) := look_of_stopped h
    unfold beginNext
    rw [beginWithin_succ, hlook]
    exact .ends hlook
  cases hd : p.player.document with
  | none => exact hstopped (.inr hd)
  | some d =>
    cases hi : p.cursor.index with
    | none => exact hstopped (.inl hi)
    | some i =>
      unfold beginNext
      rw [hd]
      exact finds_beginWithin hd (hp.read.document d hd) hi (Nat.lt_succ_of_le (Nat.sub_le _ _))

namespace Starts

theorem of_events (h : q.scene.events = p.scene.events) : Starts 0 p q :=
  ⟨[], by rw [h, List.append_nil], Nat.le_refl 0⟩

theorem trans (h : Starts m p q) (h' : Starts n q r) : Starts (m + n) p r := by
  obtain ⟨l, hq, hl⟩ := h
  obtain ⟨k, hr, hk⟩ := h'
  refine ⟨l ++ k, ?_, ?_⟩
  · rw [hr, hq, List.append_assoc]
  · rw [List.countP_append]
    exact Nat.add_le_add hl hk

theorem mono (h : Starts m p q) (hle : m ≤ n) : Starts n p q := by
  obtain ⟨l, hq, hl⟩ := h
  exact ⟨l, hq, hl.trans hle⟩

theorem of_sequel (h : Sequel p q) : Starts 0 p q := by
  obtain ⟨l, hq, hnone⟩ := h.events
  refine ⟨l, hq, Nat.le_of_eq (List.countP_eq_zero.2 fun event hevent hstart => ?_)⟩
  cases event with
  | commandExecuted spot name => exact hnone spot name hevent
  | _ => cases hstart

/-- The one report of a start is made as the command is marked as read. -/
theorem reported (env : Env) (p : Playback) (spot : Spot) (name : String) :
    Starts 1 p (p.reported env spot name) := by
  obtain ⟨q, hq⟩ : ∃ q, q = p.withCursor { p.cursor with played := p.cursor.played + 1 } := ⟨_, rfl⟩
  have hsame : q.scene.events = p.scene.events := by rw [hq]; rfl
  have htrack : Starts 0 q (q.trackRead env spot) := by
    unfold trackRead
    split
    · exact of_events rfl
    · dsimp only
      split
      · exact (of_events (q := q.withServices _) rfl).trans (of_sequel (.stopSkip _))
      · exact of_events rfl
  have htell : Starts 1 (q.trackRead env spot)
      ((q.trackRead env spot).emit (.commandExecuted spot name)) :=
    ⟨[.commandExecuted spot name], Scene.events_emit _ _, Nat.le_refl 1⟩
  have h := ((of_events hsame).trans htrack).trans htell
  unfold Playback.reported
  rw [← hq]
  exact h

theorem begin (env : Env) (ha : p.player.active = none) (d : Document) (i : Nat) (c : Command)
    (h : Handler) : Starts 1 p (p.begin env d i c h).1 :=
  (reported env p ⟨d.name, i⟩ c.name).trans (of_sequel (sequel_begin env ha d i c h))

/-- A round of the search that passes a command starts none, and one that ends it one at most. -/
theorem look (env : Env) (ha : p.player.active = none) :
    (p.look env).elim (fun q => Starts 0 p q ∧ q.player.active = none)
      fun r => Starts 1 p r.1 := by
  have hnone : ∀ {u : Playback}, Sequel p u → Starts 1 p u :=
    fun h => (of_sequel h).mono (Nat.zero_le 1)
  unfold Playback.look
  cases hi : p.cursor.index with
  | none => exact hnone (.refl p)
  | some i =>
    cases hd : p.player.document with
    | none => exact hnone (.refl p)
    | some d =>
      have hforward := sequel_reach p
      have hactive := (congrArg Bearings.active (p.bearings_checkForward d i)).trans ha
      rw [reach_eq hd hi] at hforward
      dsimp only
      cases d.command? i with
      | none => exact hnone (.endOfScript p _)
      | some c =>
        dsimp only
        generalize p.checkForward d i = r at hforward hactive ⊢
        obtain ⟨u, _ | _⟩ := r
        · have henter : Sequel p u.entering := hforward.trans (.of_frame rfl rfl id)
          dsimp only
          cases d.entry i u.player.arrivedByBranch u.services with
          | skip next => exact ⟨of_sequel (henter.trans (.of_frame rfl rfl id)), hactive⟩
          | run =>
            dsimp only
            cases env.source.registry.get? c.name with
            | none =>
              have hreport := henter.trans (.reportFault u.entering ⟨d.name, i⟩
                ("unknown command `" ++ c.name ++ "`"))
              exact ⟨of_sequel (hreport.trans (.of_frame rfl rfl id)), hactive⟩
            | some h =>
              have hbegin := (of_sequel henter).trans (begin env (p := u.entering) hactive d i c h)
              rwa [Nat.zero_add] at hbegin
        · exact hnone hforward

theorem of_finds {r : Playback × Except JumpError Begin} (h : Finds env p r)
    (ha : p.player.active = none) : Starts 1 p r.1 := by
  induction h with
  | ends h =>
    have hlook := look env ha
    rw [h] at hlook
    exact hlook
  | passes h tail ih =>
    have hlook := look env ha
    rw [h] at hlook
    have hrest := hlook.1.trans (ih hlook.2)
    rwa [Nat.zero_add] at hrest

theorem stepActive (env : Env) (p : Playback) (a : ActiveCommand) (delta : Nanoseconds) :
    Starts 0 p (p.stepActive env a delta).1 := by
  by_cases h : ∃ d c, p.player.document = some d ∧ d.command? a.index = some c
  · obtain ⟨d, c, hd, hc⟩ := h
    have hwork : Starts 0 (p.withServices _) (p.stepActive env a delta).1 :=
      of_sequel (sequel_work hd hc delta)
    exact hwork
  · exact of_sequel (sequel_stray (fun d c hd hc => h ⟨d, c, hd, hc⟩) delta)

/-- Stepping the command in flight and then running on starts no more than the run. -/
theorem step_run {n : Nat} (hrest : ∀ q, Steps env q → q.player.active = none →
      Starts n q (run env n 0 q).1)
    (hp : Steps env p) (hi : p.cursor.index ≠ none) (ha : p.player.active = some a)
    (delta : Nanoseconds) :
    Starts n p (match p.stepActive env a delta with
      | (p, .error e) => (p, (.error e : Except JumpError Unit))
      | (p, .ok false) => (p, .ok ())
      | (p, .ok true) => Playback.run env n 0 p).1 := by
  have hstep := stepActive env p a delta
  obtain ⟨hturns, hidle⟩ := stepActive_turns (w := .none) hp.registry hp.read ha hi delta
  generalize p.stepActive env a delta = r at hstep hturns hidle ⊢
  obtain ⟨q, e | (_ | _)⟩ := r
  · exact hstep.mono (Nat.zero_le n)
  · exact hstep.mono (Nat.zero_le n)
  · have h := hstep.trans (hrest q (hp.turns hturns) (hidle rfl))
    rwa [Nat.zero_add] at h

theorem run (n : Nat) (delta : Nanoseconds) (hp : Steps env p) (ha : p.player.active = none) :
    Starts n p (p.run env n delta).1 := by
  induction n generalizing p delta with
  | zero => exact of_events rfl
  | succ n ih =>
    unfold Playback.run
    split
    · exact (of_events rfl).mono (Nat.zero_le _)
    · have hone := of_finds hp.finds ha
      have hbegin := beginNext_begins (w := .none) hp.registry hp.read ha
      generalize p.beginNext env = r at hone hbegin ⊢
      obtain ⟨q, e | (_ | _ | _)⟩ := r
      · exact hone.mono (Nat.le_add_left 1 n)
      · dsimp only
        cases hqa : q.player.active with
        | none => exact hone.mono (Nat.le_add_left 1 n)
        | some a =>
          have hstep := step_run (fun u hu hua => ih 0 hu hua) (hp.turns hbegin.turns)
            (hbegin.index rfl) hqa delta
          exact Nat.add_comm 1 n ▸ hone.trans hstep
      · have hrest := ih delta (hp.turns hbegin.turns) (hbegin.idle (by simp))
        exact Nat.add_comm 1 n ▸ hone.trans hrest
      · exact hone.mono (Nat.le_add_left 1 n)

theorem advance (delta : Nanoseconds) (hp : Steps env p) (hrun : p.player.isRunning = true) :
    Starts env.config.maxCommands p (p.advance env delta).1 := by
  unfold Playback.advance
  cases ha : p.player.active with
  | none => exact run _ delta hp ha
  | some a =>
    dsimp only
    split
    · rename_i hstray
      have hstep : Step env p (p.stepActive env a delta).1 := .work hrun ha delta
      have hzero := stepActive env p a delta
      rw [stepActive_stray hstray] at hstep hzero
      have h := hzero.trans (run env.config.maxCommands delta
        (hp.turns (w := .none) (hstep.turns hp.registry hp.read)) rfl)
      rwa [Nat.zero_add] at h
    · exact step_run (fun u hu hua => run _ 0 hu hua) hp (index_of_isRunning hrun) ha delta

theorem interrupt (p : Playback) : Starts 0 p p.interrupt := by
  have hcancel : Starts 0 p p.cancelActive := by
    unfold cancelActive
    split <;> exact of_events rfl
  unfold Playback.interrupt
  generalize p.cancelActive = u at hcancel ⊢
  exact hcancel.trans (of_sequel (sequel_halt u))

/-- A tick starts no more commands than it may. -/
theorem tick (delta : Nanoseconds) (hp : Steps env p) :
    Starts env.config.maxCommands p (p.tick env delta).1 := by
  unfold Playback.tick
  cases hrun : p.player.isRunning with
  | false => exact (of_events rfl).mono (Nat.zero_le _)
  | true =>
    simp only [Bool.not_true, Bool.false_eq_true, if_false]
    split
    · exact (interrupt p).mono (Nat.zero_le _)
    · split
      · have hleave := of_sequel (sequel_leaveWait env p delta)
        have hturns := hp.turns (w := .none)
          ((Step.leave delta).turns hp.registry hp.read)
        have hsame : (p.leaveWait env delta).1.player.isRunning = true :=
          (congrArg (fun q : Playback => q.player.isRunning)
            (p.bare_leaveWait env delta)).trans hrun
        generalize p.leaveWait env delta = r at hleave hturns hsame ⊢
        obtain ⟨q, _ | _⟩ := r
        · exact hleave.mono (Nat.zero_le _)
        · have h := hleave.trans (advance delta hturns hsame)
          rwa [Nat.zero_add] at h
      · exact advance delta hp hrun

end Starts

end Playback

end Playhead

namespace Playhead.Engine

open Playback

/-- An engine that has ticked main playback, before its transient scripts take their turns. -/
def played (e : Engine) (delta : Nanoseconds) : Engine :=
  ({ e with playback := (e.playback.tick e.env delta).1 } : Engine).reapCancelled

/-- The turn of a transient script in a tick. -/
def wingTurn (e : Engine) (delta : Nanoseconds) (r : TransientRun) (s : Scene) :
    TransientRun.Outcome :=
  r.advance e.registry (e.playback.scopes.isCancelled r.scope) s delta e.config.player.maxCommands

/-- The turns of the transient scripts in a tick. -/
def wingTurns (e : Engine) (delta : Nanoseconds) : List (TransientRun × Scene) :=
  TransientRunner.turns ((e.played delta).wingTurn delta) (e.played delta).transients.runs
    (e.played delta).playback.scene

variable {e u : Engine}

/-- A tick leaves the transient scripts as their turns leave them. -/
theorem runs_tick (e : Engine) (delta : Nanoseconds) :
    (e.tick delta).1.transients.runs = (e.wingTurns delta).filterMap fun x =>
      match (e.played delta).wingTurn delta x.1 x.2 with
      | (r, _, none) => some r
      | (_, _, some _) => none :=
  TransientRunner.visit_eq_turns _ _ _ _

end Playhead.Engine
