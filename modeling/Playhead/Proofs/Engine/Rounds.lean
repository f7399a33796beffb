import Playhead.Proofs.Engine.Drive
import Playhead.Proofs.Standing.Progress
import Playhead.Proofs.Standing.Steady

/-!
Rounds of play: the player goes on and some time passes.
-/

namespace Playhead

/-- So many rounds, each with the time that passes in it. -/
def rounds : (Nat → Nanoseconds) → Nat → List Input
  | _, 0 => []
  | delta, n + 1 => .goOn :: .tick (delta 0) :: rounds (fun i => delta (i + 1)) n

theorem rounds_add (delta : Nat → Nanoseconds) (m n : Nat) :
    rounds delta (m + n) = rounds delta m ++ rounds (fun i => delta (m + i)) n := by
  induction m generalizing delta with
  | zero => simp [rounds]
  | succ m ih =>
    rw [Nat.succ_add]
    simp only [rounds, List.cons_append, ih, Nat.succ_add]

theorem isPlain_of_mem_rounds {delta : Nat → Nanoseconds} {n : Nat} {i : Input}
    (h : i ∈ rounds delta n) : i.IsPlain := by
  induction n generalizing delta with
  | zero => cases h
  | succ n ih =>
    rcases List.mem_cons.1 h with rfl | h
    · exact trivial
    · rcases List.mem_cons.1 h with rfl | h
      · exact trivial
      · exact ih h

theorem not_isSelect_of_mem_round {delta : Nanoseconds} {i : Input}
    (h : i ∈ [.goOn, .tick delta]) : ¬i.IsSelect := by
  simp only [List.mem_cons, List.not_mem_nil, or_false] at h
  rcases h with rfl | rfl <;> exact id

namespace Engine

variable {e : Engine}

/-- An engine that a round moves on: it has not halted, and no option waits for a selection. -/
structure Ready (e : Engine) : Prop where
  going : e.player.halted = false
  settled : e.playback.choicesPending = false

/-- Driving has strayed, or it has gone along the standings to where a property holds. -/
def Gets (e : Engine) (l : List Input) (P : List Note → Engine → List ServiceSet → Prop) : Prop :=
  Playback.Strays e.env e.playback (e.takeAll l).playback (e.afters l) ∨
    ∃ m, Playback.Follows e.env e.playback m (e.takeAll l).playback (e.afters l) ∧
      (e.takeAll l).Sound ∧ P m (e.takeAll l) (e.afters l)

theorem over_of_stopped (h : e.status = .stopped) : e.player.halted = true ∨ e.playback.Over := by
  unfold status Player.status at h
  split at h
  · cases h
  · split at h
    · rename_i hs
      rcases Bool.or_eq_true_iff.1 hs with hs | hs
      · exact .inl hs
      · exact .inr (.inr (Option.isNone_iff_eq_none.1 hs))
    · split at h
      · cases h
      · split at h
        · cases h
        · split at h <;> cases h

theorem stopped_of_over (hd : e.player.document ≠ none) (h : e.playback.Over) :
    e.status = .stopped := by
  have hi : e.player.cursor.index = none := h.resolve_left hd
  unfold status Player.status Cursor.isStopped
  rw [show e.playback.player.cursor.index = none from hi]
  cases hdoc : e.playback.player.document with
  | none => exact absurd hdoc hd
  | some d =>
    simp

theorem waiting_continueInput {p : Playback} (h : p.choicesPending = false) :
    p.continueInput.cursor.waiting = false := by
  unfold Playback.continueInput
  split
  · rename_i hc
    rw [h, Bool.or_false, Bool.not_eq_true'] at hc
    exact hc
  · rfl

theorem takeAll_env (he : e.Sound) {l : List Input} (hl : ∀ i ∈ l, ¬i.IsSelect) :
    (e.takeAll l).env = e.env := by
  obtain ⟨p, hp⟩ := takeAll_alone he.alone hl
  rw [hp]
  rfl

theorem takeAll_gets (he : e.Sound) {l : List Input} (hl : ∀ i ∈ l, ¬i.IsSelect) :
    e.Gets l fun _ _ _ => True := by
  rcases takeAll_tracked he hl with ⟨m, hm, hs, -⟩ | hs
  · exact .inr ⟨m, hm, he.takeAll hl hm hs, trivial⟩
  · exact .inl hs

/-- What driving gets to and what it gets to from there. -/
theorem Gets.trans (he : e.Sound) {l l' : List Input} (hl : ∀ i ∈ l, ¬i.IsSelect)
    (hl' : ∀ i ∈ l', ¬i.IsSelect) {P Q : List Note → Engine → List ServiceSet → Prop}
    (h : e.Gets l P)
    (h' : ∀ m, Playback.Follows e.env e.playback m (e.takeAll l).playback (e.afters l) →
      (e.takeAll l).Sound → P m (e.takeAll l) (e.afters l) →
      (e.takeAll l).Gets l' fun m' e' g => Q (m ++ m') e' (e.afters l ++ g)) :
    e.Gets (l ++ l') Q := by
  have henv := takeAll_env he hl
  unfold Gets
  rw [takeAll_append, afters_append]
  rcases h with hs | ⟨m, hm, hs, hP⟩
  · refine .inl (hs.grow ?_ _)
    obtain ⟨p, hp⟩ := takeAll_alone he.alone hl
    refine takeAll_grows ?_ hl'
    rw [hp]
    exact he.alone
  · rcases h' m hm hs hP with hs' | ⟨m', hm', hs', hQ⟩
    · rw [henv] at hs'
      exact .inl (hm.strays hs')
    · rw [henv] at hm'
      exact .inr ⟨m ++ m', hm.trans hm', hs', hQ⟩

/-- A round completes a command, ends the story or shortens the wait in flight. -/
theorem round_advances (he : e.Sound) (hr : e.Ready) (ho : ¬e.playback.Over)
    (delta : Nanoseconds) :
    e.Gets [.goOn, .tick delta] fun _ e' g => Playback.Advances e.playback e'.playback g delta := by
  have hstays := Playback.Stays.continueInput e.playback
  have hsound : e.playback.continueInput.Sound e.env := he.playback.stays hstays
  have hrunning : e.playback.continueInput.player.isRunning = true := by
    have hd : e.playback.continueInput.player.document = e.playback.player.document :=
      congrArg Standing.document hstays.standing
    have hi : e.playback.continueInput.cursor.index = e.playback.cursor.index :=
      congrArg Standing.index hstays.standing
    have hh : e.playback.continueInput.player.halted = false := by
      rw [Bool.eq_false_iff]
      intro h
      exact absurd (hr.going.symm.trans (hstays.halted h)) Bool.false_ne_true
    unfold Player.isRunning Cursor.isStopped
    rw [hd, hh, show e.playback.continueInput.player.cursor.index = _ from hi]
    unfold Playback.Over at ho
    cases hdoc : e.playback.player.document with
    | none => exact absurd (.inl hdoc) ho
    | some d =>
      cases hindex : e.playback.cursor.index with
      | none => exact absurd (.inr hindex) ho
      | some i => rfl
  have htick := Playback.tick_advances hsound hrunning (waiting_continueInput hr.settled) he.budget
    delta
  have hend : (e.takeAll [.goOn, .tick delta]).playback =
      (e.playback.continueInput.tick e.env delta).1 := by
    have halone : (e.take .goOn).transients.runs = [] := he.alone
    show ((e.take .goOn).tick delta).1.playback = _
    rw [tick_alone halone]
    rfl
  have hafters : e.afters [.goOn, .tick delta] =
      e.playback.continueInput.tickAfters e.env delta := List.append_nil _
  have hadvance : ∀ p q : Playback, ∀ g, p.player.active = q.player.active →
      Playback.Advances p (e.takeAll [.goOn, .tick delta]).playback g delta →
      Playback.Advances q (e.takeAll [.goOn, .tick delta]).playback g delta := by
    intro p q g hpq h
    rcases h with h | h | ⟨b, hb, hpos, hle⟩
    · exact .inl h
    · exact .inr (.inl h)
    · exact .inr (.inr ⟨b, hb, hpos, fun a ha => hle a (hpq.trans ha)⟩)
  rw [← hend, ← hafters] at htick
  rcases takeAll_gets he (fun i => not_isSelect_of_mem_round) with hs | ⟨m, hm, hs, -⟩
  · exact .inl hs
  · rcases htick with hs' | ha
    · exact .inl ((Playback.Follows.of_stays he.playback hstays).strays hs')
    · exact .inr ⟨m, hm, hs, hadvance _ _ _ hstays.active ha⟩

/-- Nothing but a completed command makes an engine halt or wait for a selection. -/
theorem Ready.follows {p : Playback} {m : List Note} {g : List ServiceSet} {e' : Engine}
    (hr : e.Ready) (hm : Playback.Follows e.env e.playback m p g) (hg : g = [])
    (hp : e'.playback = p) : e'.Ready := by
  have hsilent := hm.leads.silent (by rw [← hm.afters, hg]; rfl)
  constructor
  · show e'.playback.player.halted = false
    rw [hp, Bool.eq_false_iff]
    intro h
    rcases hm.halted h with h | h
    · exact absurd (hr.going.symm.trans h) Bool.false_ne_true
    · exact hsilent.2 h
  · show e'.playback.services.story.choicesPending = false
    rw [hp, show p.services.story = e.playback.services.story from hsilent.1]
    exact hr.settled

/-- An engine stays ready on a way on which no option is registered and nothing halts. -/
theorem Ready.steady {p : Playback} {m : List Note} {g : List ServiceSet} {e' : Engine}
    (hr : e.Ready) (he : e.Sound)
    (hm : Playback.Follows e.env e.playback m p g) (hb : Standing.Starts m Builtin.Steady)
    (hc : ∀ name, e.playback.standing.Current name → Builtin.Steady name)
    (hp : e'.playback = p) : e'.Ready := by
  have hsteady := hm.leads.steady he.playback.shelf hb hc
  constructor
  · show e'.playback.player.halted = false
    rw [hp, Bool.eq_false_iff]
    intro hh
    rcases hm.halted hh with hh | hh
    · exact absurd (hr.going.symm.trans hh) Bool.false_ne_true
    · exact hsteady.2 hh
  · have hchoices : p.services.choices = e.playback.services.choices := hsteady.1
    unfold Playback.choicesPending ServiceSet.choicesPending
    rw [hp, hchoices]
    exact hr.settled

/-- Goes on after a round in which no command completed: a wait is in flight. -/
theorem round_then {delta : Nat → Nanoseconds} (he : e.Sound) (hr : e.Ready)
    (ho : ¬e.playback.Over)
    (h : ∀ (e' : Engine) (b : ActiveCommand), e'.Sound → e'.Ready → ¬e'.playback.Over →
      e'.player.active = some b → 0 < b.left →
      (∀ a, e.player.active = some a → b.left ≤ a.left - delta 0) →
      ∃ k, e'.Gets (rounds (fun i => delta (i + 1)) k) fun _ e' g => g ≠ [] ∨ e'.playback.Over) :
    ∃ k, e.Gets (rounds delta k) fun _ e' g => g ≠ [] ∨ e'.playback.Over := by
  rcases round_advances he hr ho (delta 0) with hs | ⟨m, hm, hs, hround⟩
  · exact ⟨1, .inl hs⟩
  · by_cases hdone : e.afters [.goOn, .tick (delta 0)] ≠ [] ∨
        (e.takeAll [.goOn, .tick (delta 0)]).playback.Over
    · exact ⟨1, .inr ⟨m, hm, hs, hdone⟩⟩
    · rcases hround with hg | ho' | ⟨b, hb, hpos, hle⟩
      · exact absurd (.inl hg) hdone
      · exact absurd (.inr ho') hdone
      · have hg : e.afters [.goOn, .tick (delta 0)] = [] :=
          Classical.not_not.1 fun hg => hdone (.inl hg)
        obtain ⟨k, hk⟩ := h _ b hs (hr.follows hm hg rfl) (fun ho' => hdone (.inr ho')) hb hpos hle
        refine ⟨k + 1, ?_⟩
        refine Gets.trans he (fun i => not_isSelect_of_mem_round)
          (fun i hi => (isPlain_of_mem_rounds hi).not_isSelect)
          (P := fun _ _ _ => True) (.inr ⟨m, hm, hs, trivial⟩) fun m' _ _ _ => ?_
        rw [hg]
        exact hk

/-- While a wait is in flight, time that passes brings its end. -/
theorem wait_ends (n : Nat) {delta : Nat → Nanoseconds} (hd : ∀ i, 0 < delta i) (he : e.Sound)
    (hr : e.Ready) (ho : ¬e.playback.Over) {a : ActiveCommand} (ha : e.player.active = some a)
    (hn : a.left ≤ n) :
    ∃ k, e.Gets (rounds delta k) fun _ e' g => g ≠ [] ∨ e'.playback.Over := by
  induction n generalizing e delta a with
  | zero =>
    refine round_then he hr ho fun e' b _ _ _ _ hpos hle => ?_
    have hle := hle a ha
    have hpast : a.left - delta 0 ≤ 0 := Nat.le_trans (Nat.sub_le _ _) hn
    exact absurd (Nat.lt_of_lt_of_le hpos (Nat.le_trans hle hpast)) (Nat.lt_irrefl 0)
  | succ n ih =>
    refine round_then he hr ho fun e' b hs hr' ho' hb _ hle => ?_
    refine ih (fun i => hd (i + 1)) hs hr' ho' hb (Nat.le_trans (hle a ha) ?_)
    exact Nat.sub_le_of_le_add (Nat.le_trans hn (Nat.add_le_add_left (hd 0) n))

/-- Rounds in which time passes complete a command or end the story. -/
theorem rounds_advance {delta : Nat → Nanoseconds} (hd : ∀ i, 0 < delta i) (he : e.Sound)
    (hr : e.Ready) (ho : ¬e.playback.Over) :
    ∃ k, e.Gets (rounds delta k) fun _ e' g => g ≠ [] ∨ e'.playback.Over :=
  round_then he hr ho fun _ b hs hr' ho' hb _ _ =>
    wait_ends b.left (fun i => hd (i + 1)) hs hr' ho' hb (Nat.le_refl _)

end Engine

end Playhead
