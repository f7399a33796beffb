import Playhead.Proofs.Standing.Tick

/-!
Playback apart from how it is played: without the modes, the waits, a run forward and the events.

Every step changes what is left in the same way, however it is played.
-/

namespace Playhead

/-- A task without the time that it waits. -/
def Task.bare : Task → Task
  | .wait w => .wait { w with time := none }
  | t => t

namespace Playback

/-- Playback apart from how it is played. -/
def bare (p : Playback) : Playback :=
  { p with
    player := { p.player with
      cursor := { p.cursor with
        waiting := false, skipping := false, autoPlaying := false, synchronizing := false }
      active := p.player.active.map fun a => { a with task := a.task.bare }
      waitElapsed := 0
      fastForward := none }
    scene := ⟨p.services, []⟩ }

section

variable (p : Playback)

theorem bare_setSkip (on : Bool) : (p.setSkip on).bare = p.bare := by
  unfold setSkip
  split <;> rfl

theorem bare_continueInput : p.continueInput.bare = p.bare := by
  unfold continueInput
  split <;> rfl

theorem bare_presentChoices : p.presentChoices.bare = p.bare := by
  unfold presentChoices
  split
  · exact p.bare_setSkip false
  · rfl

theorem bare_enterScript (d : Document) : (p.enterScript d).bare = p.bare := by
  unfold enterScript
  split <;> rfl

theorem bare_checkForward (d : Document) (i : Nat) : (p.checkForward d i).1.bare = p.bare := by
  unfold checkForward
  split
  · rfl
  · split <;> rfl

theorem bare_leaveWait (env : Env) (delta : Nanoseconds) :
    (p.leaveWait env delta).1.bare = p.bare := by
  obtain ⟨t, h⟩ | ⟨t, h⟩ := leaveWait_cases env p delta <;> rw [h] <;> rfl

theorem bare_bare : p.bare.bare = p.bare := by
  unfold bare
  cases p.player.active with
  | none => rfl
  | some a =>
    obtain ⟨i, t, eligible⟩ := a
    cases t <;> rfl

theorem bare_moveTo (d : Document) (i : Nat) (atEnd : StopReason) :
    (p.moveTo d i atEnd).bare =
      { p.bare with player := { p.bare.player with
        document := some d
        cursor := { p.bare.cursor with
          script := d.name, revision := d.revision
          index := if i < d.size then some i else none } } } := by
  have h := p.bare_enterScript d
  unfold moveTo
  generalize p.enterScript d = q at h ⊢
  rw [← h]
  by_cases hi : d.size ≤ i
  · rw [if_neg (Nat.not_lt.2 hi)]
    simp only [if_pos hi]
    rfl
  · rw [if_pos (Nat.lt_of_not_le hi)]
    simp only [if_neg hi]
    rfl

theorem bare_settle (c : Completion) (adds : Bool) :
    (p.settle c adds).bare =
      if p.bare.cursor.isStopped = false ∧ c.flow = .stop then
        { p.bare with player := { p.bare.player with halted := true } }
      else p.bare := by
  unfold settle
  rw [show p.bare.cursor.isStopped = p.cursor.isStopped from rfl]
  cases hs : p.cursor.isStopped with
  | true => rfl
  | false =>
    by_cases hf : c.flow = .stop
    · simp only [hf]
      rfl
    · simp only [hf, and_false, if_false, Bool.false_eq_true]
      split
      · exact p.bare_presentChoices
      · split <;> rfl

theorem bare_lockNewest (allow : Bool) :
    (p.lockNewest allow).bare = p.bare.lockNewest allow := by
  unfold lockNewest
  split <;> rfl

theorem bare_capture (d : Document) (next : Nat) (c : Completion) :
    (p.capture d next c).bare = { p.bare with manager := (p.capture d next c).manager } ∧
      (p.bare.capture d next c).manager = (p.capture d next c).manager := by
  unfold capture
  rw [show p.bare.services = p.services from rfl, show p.bare.manager = p.manager from rfl,
    show p.bare.cursor.played = p.cursor.played from rfl]
  split
  · exact ⟨rfl, rfl⟩
  · dsimp only
    split <;> exact ⟨rfl, rfl⟩

theorem bare_cancelActive : p.bare.cancelActive.bare = p.cancelActive.bare := by
  unfold cancelActive
  have h : p.bare.player.active = p.player.active.map fun a => { a with task := a.task.bare } := rfl
  cases ha : p.player.active with
  | none =>
    rw [h, ha]
    exact p.bare_bare
  | some a =>
    rw [h, ha]
    obtain ⟨i, t, eligible⟩ := a
    cases t <;> rfl

theorem bare_stop (reason : StopReason) : (p.bare.stop reason).bare = (p.stop reason).bare :=
  congrArg (fun q : Playback => { q with player := { q.player with
    cursor := { q.player.cursor with index := none }, halted := false } }) p.bare_cancelActive

theorem bare_resolveJump (env : Env) (target : JumpTarget) :
    p.bare.resolveJump env target =
      ((p.resolveJump env target).1.bare, (p.resolveJump env target).2) := by
  have hdocument : ∀ current name, p.bare.documentFor env current name =
      ((p.documentFor env current name).1.bare, (p.documentFor env current name).2) := by
    intro current name
    unfold documentFor
    rw [show p.bare.library = p.library from rfl]
    split
    · rfl
    · split <;> rfl
  unfold resolveJump
  rw [show p.bare.player.document = p.player.document from rfl]
  split
  · rfl
  · rename_i current hcurrent
    split
    · rename_i script label
      rw [hdocument]
      generalize p.documentFor env current (script.getD current.name) = r
      obtain ⟨q, e | d⟩ := r
      · rfl
      · dsimp only
        split
        · rfl
        · split <;> rfl
    · rename_i spot
      rw [hdocument]
      generalize p.documentFor env current spot.script = r
      obtain ⟨q, e | d⟩ := r
      · rfl
      · dsimp only
        split <;> rfl

theorem bare_follow (env : Env) (d : Document) (i : Nat) (flow : Flow) :
    p.bare.follow env d i flow =
      ((p.follow env d i flow).1.bare, (p.follow env d i flow).2) := by
  unfold follow
  split
  · rfl
  · rfl
  · rfl
  · exact p.bare_resolveJump env _

end

/-- What does not depend on how it is played has the same effect on two ways of playing. -/
theorem bare_congr {f : Playback → Playback} (hf : ∀ p : Playback, (f p.bare).bare = (f p).bare)
    {p q : Playback} (h : p.bare = q.bare) : (f p).bare = (f q).bare := by
  rw [← hf p, h, hf q]

theorem bare_complete (env : Env) (p : Playback) (i : Nat) (c : Completion) (eligible : Bool) :
    (p.bare.complete env i c eligible).1.bare = (p.complete env i c eligible).1.bare := by
  unfold complete
  rw [show p.bare.player.document = p.player.document from rfl]
  split
  · exact p.bare_bare
  · rename_i d hd
    rw [bare_follow]
    generalize p.follow env d i c.flow = r
    obtain ⟨q, e | ⟨next, j⟩⟩ := r
    · exact q.bare_stop _
    · dsimp only
      rw [← bare_lockNewest]
      generalize q.lockNewest c.allowRollback = u
      obtain ⟨v, hv⟩ : ∃ v, v = if (eligible && decide (j < next.size)) = true then
          u.capture next j c else u := ⟨_, rfl⟩
      obtain ⟨v', hv'⟩ : ∃ v, v = if (eligible && decide (j < next.size)) = true then
          u.bare.capture next j c else u.bare := ⟨_, rfl⟩
      have hbare : v'.bare = v.bare := by
        rw [hv, hv']
        split
        · obtain ⟨h, hmanager⟩ := u.bare_capture next j c
          obtain ⟨h', -⟩ := u.bare.bare_capture next j c
          rw [h, h', hmanager, bare_bare]
        · exact u.bare_bare
      rw [← hv, ← hv']
      rw [bare_settle, bare_settle, bare_moveTo, bare_moveTo, hbare]

theorem bare_trackRead (env : Env) (p : Playback) (spot : Spot) :
    (p.bare.trackRead env spot).bare = (p.trackRead env spot).bare := by
  unfold trackRead
  rw [show p.bare.services = p.services from rfl]
  split
  · exact p.bare_bare
  · rename_i played hplayed
    obtain ⟨s, hs⟩ : ∃ s : ServiceSet,
        s = { p.services with played := some (played.mark spot.script spot.index) } := ⟨_, rfl⟩
    have hbare : (p.bare.withServices s).bare = (p.withServices s).bare :=
      congrArg (fun q : Playback => { q with scene := ⟨s, []⟩ }) p.bare_bare
    dsimp only
    rw [← hs]
    split
    · split
      · rw [bare_setSkip, bare_setSkip, hbare]
      · rw [bare_setSkip, hbare]
    · split
      · rw [bare_setSkip, hbare]
      · exact hbare

theorem bare_reported (env : Env) (p : Playback) (spot : Spot) (name : String) :
    (p.bare.reported env spot name).bare = (p.reported env spot name).bare :=
  bare_trackRead env (p.withCursor { p.cursor with played := p.cursor.played + 1 }) spot

theorem bare_begin (env : Env) (p : Playback) (d : Document) (i : Nat) (c : Command)
    (h : Handler) : (p.bare.begin env d i c h).1.bare = (p.begin env d i c h).1.bare := by
  have hreported := bare_reported env p ⟨d.name, i⟩ c.name
  rw [begin_eq, begin_eq]
  generalize p.reported env ⟨d.name, i⟩ c.name = q at hreported ⊢
  generalize p.bare.reported env ⟨d.name, i⟩ c.name = q' at hreported ⊢
  cases h.begin c with
  | ok t =>
    exact congrArg (fun q : Playback => { q with player := { q.player with
      active := some ⟨i, t.bare, h.eligible⟩ } }) hreported
  | error f =>
    dsimp only
    rw [fst_passed, fst_passed]
    exact bare_congr (f := fun q => (q.complete env i (.ofFault c.role) h.eligible).1)
      (fun q => bare_complete env q i _ _) hreported

end Playback

end Playhead
