import Mathlib.Logic.Function.Iterate
import Playhead.Proofs.Standing.Shelf

/-!
What ties transient scripts to main playback: the scopes and the one of playback among them.

Nothing that playback does by itself changes them, but that it opens a new scope when its own was
cancelled.
-/

namespace Playhead

/-- Whether a scope is another one or below it. -/
def CancelScope.Below (s t : CancelScope) : Prop :=
  t.id ∈ s.id :: s.above

instance (s t : CancelScope) : Decidable (s.Below t) :=
  inferInstanceAs (Decidable (t.id ∈ s.id :: s.above))

namespace Cancellations

/-- Only scopes that were opened are cancelled. -/
def Proper (c : Cancellations) : Prop :=
  ∀ n ∈ c.cancelled, n < c.next

/-- A scope that was opened, below others that were. -/
def Knows (c : Cancellations) (s : CancelScope) : Prop :=
  ∀ n ∈ s.id :: s.above, n < c.next

/-- Scopes are opened and cancelled, but never closed or revived. -/
structure Grows (c d : Cancellations) : Prop where
  next : c.next ≤ d.next
  cancelled : ∀ n ∈ c.cancelled, n ∈ d.cancelled

instance (c : Cancellations) (s : CancelScope) : Decidable (c.Knows s) :=
  inferInstanceAs (Decidable (∀ n ∈ s.id :: s.above, n < c.next))

instance (c : Cancellations) : Decidable c.Proper :=
  inferInstanceAs (Decidable (∀ n ∈ c.cancelled, n < c.next))

instance (c d : Cancellations) : Decidable (c.Grows d) :=
  decidable_of_iff (c.next ≤ d.next ∧ ∀ n ∈ c.cancelled, n ∈ d.cancelled)
    ⟨fun h => ⟨h.1, h.2⟩, fun h => ⟨h.next, h.cancelled⟩⟩

variable {c d : Cancellations} {s t : CancelScope}

theorem Grows.refl (c : Cancellations) : Grows c c :=
  ⟨Nat.le_refl _, fun _ h => h⟩

theorem Grows.trans {f : Cancellations} (h : Grows c d) (h' : Grows d f) : Grows c f :=
  ⟨Nat.le_trans h.next h'.next, fun n hn => h'.cancelled n (h.cancelled n hn)⟩

theorem Knows.grows (h : c.Knows s) (hg : Grows c d) : d.Knows s :=
  fun n hn => Nat.lt_of_lt_of_le (h n hn) hg.next

theorem isCancelled_iff : c.isCancelled s = true ↔ ∃ n ∈ s.id :: s.above, n ∈ c.cancelled := by
  unfold isCancelled
  simp only [List.any_eq_true, List.contains_iff_mem]

/-- What was cancelled stays cancelled. -/
theorem isCancelled_grows (hg : Grows c d) (h : c.isCancelled s = true) :
    d.isCancelled s = true := by
  obtain ⟨n, hn, hc⟩ := isCancelled_iff.1 h
  exact isCancelled_iff.2 ⟨n, hn, hg.cancelled n hc⟩

theorem grows_cancel (c : Cancellations) (t : CancelScope) : Grows c (c.cancel t) :=
  ⟨Nat.le_refl _, fun _ h => List.mem_cons_of_mem _ h⟩

theorem grows_root (c : Cancellations) : Grows c c.root.2 :=
  ⟨Nat.le_succ _, fun _ h => h⟩

theorem grows_child (c : Cancellations) (s : CancelScope) : Grows c (c.child s).2 :=
  ⟨Nat.le_succ _, fun _ h => h⟩

theorem Proper.cancel (hc : c.Proper) (ht : c.Knows t) : (c.cancel t).Proper := by
  intro n hn
  rcases List.mem_cons.1 hn with rfl | hn
  · exact ht _ List.mem_cons_self
  · exact hc n hn

theorem Proper.root (hc : c.Proper) : c.root.2.Proper :=
  fun n hn => Nat.lt_succ_of_lt (hc n hn)

/-- A scope that is opened is not cancelled. -/
theorem Proper.isCancelled_root (hc : c.Proper) : c.root.2.isCancelled c.root.1 = false := by
  refine Bool.eq_false_iff.2 fun h => ?_
  obtain ⟨n, hn, hmem⟩ := isCancelled_iff.1 h
  cases List.mem_singleton.1 hn
  exact Nat.lt_irrefl _ (hc _ hmem)

theorem knows_root (c : Cancellations) : c.root.2.Knows c.root.1 := by
  intro n hn
  cases List.mem_singleton.1 hn
  exact Nat.lt_succ_self _

/-- No scope that was there before is below one that is opened. -/
theorem Knows.not_below_root (hs : c.Knows s) : ¬s.Below c.root.1 :=
  fun h => Nat.lt_irrefl _ (hs _ h)

end Cancellations

/-- The scopes and the one of playback. -/
structure Tether where
  scopes : Cancellations
  scope : CancelScope

/-- A new scope in place of the one of playback. -/
def Tether.renew (t : Tether) : Tether :=
  ⟨t.scopes.root.2, t.scopes.root.1⟩

/-- Finitely many new scopes, one after the other. -/
def Tether.Renews (t u : Tether) : Prop :=
  ∃ n, Tether.renew^[n] t = u

theorem Tether.Renews.refl (t : Tether) : t.Renews t :=
  ⟨0, rfl⟩

theorem Tether.Renews.trans {t u v : Tether} (h : t.Renews u) (h' : u.Renews v) :
    t.Renews v := by
  obtain ⟨m, rfl⟩ := h
  obtain ⟨n, rfl⟩ := h'
  exact ⟨n + m, Function.iterate_add_apply _ n m t⟩

namespace Playback

def tether (p : Playback) : Tether :=
  ⟨p.scopes, p.player.scope⟩

variable {env : Env} {p q : Playback}

theorem Stays.tether (h : Stays p q) : q.tether = p.tether :=
  congrArg (fun b : Backdrop => (⟨b.scopes, b.scope⟩ : Tether)) h.backdrop

theorem tether_cancelActive (p : Playback) : p.cancelActive.tether = p.tether := by
  unfold cancelActive
  split <;> rfl

theorem tether_stop (p : Playback) (reason : StopReason) : (p.stop reason).tether = p.tether :=
  p.tether_cancelActive

theorem tether_presentChoices (p : Playback) : p.presentChoices.tether = p.tether := by
  unfold presentChoices
  split
  · exact (Stays.setSkip p false).tether
  · rfl

theorem tether_settleWaiting (p : Playback) (waiting : Bool) :
    (p.settleWaiting waiting).tether = p.tether := by
  unfold settleWaiting
  split
  · exact p.tether_presentChoices
  · split <;> rfl

theorem tether_moveTo (p : Playback) (d : Document) (i : Nat) (atEnd : StopReason) :
    (p.moveTo d i atEnd).tether = p.tether := by
  have h := (Stays.enterScript p d).tether
  unfold moveTo
  dsimp only
  split <;> exact h

theorem tether_settle (p : Playback) (c : Completion) (adds : Bool) :
    (p.settle c adds).tether = p.tether := by
  unfold settle
  split
  · rfl
  · split
    · rfl
    · split
      · exact p.tether_presentChoices
      · split <;> rfl

theorem tether_start (p : Playback) (d : Document) (i : Nat) :
    (p.start d i).tether = p.tether := by
  have h := (Stays.setSkip p.cancelActive false).tether.trans p.tether_cancelActive
  unfold start
  dsimp only
  split <;> exact h

theorem tether_restorePosition (p : Playback) (d : Document) (i played : Nat) (waiting : Bool) :
    (p.restorePosition d i played waiting).tether = p.tether := by
  unfold restorePosition
  dsimp only
  rw [tether_settleWaiting]
  exact ((Stays.enterScript (p.cancelActive.setSkip false) d).tether).trans
    ((Stays.setSkip p.cancelActive false).tether.trans p.tether_cancelActive)

theorem tether_capture (p : Playback) (d : Document) (next : Nat) (c : Completion) :
    (p.capture d next c).tether = p.tether := by
  unfold capture
  split
  · rfl
  · dsimp only
    split <;> rfl

theorem tether_lockNewest (p : Playback) (allow : Bool) :
    (p.lockNewest allow).tether = p.tether := by
  unfold lockNewest
  split <;> rfl

theorem tether_resolveJump (env : Env) (p : Playback) (target : JumpTarget) :
    (p.resolveJump env target).1.tether = p.tether := by
  obtain ⟨k, -, hk⟩ := resolveJump_library env p target
  rw [hk]
  rfl

theorem tether_follow (env : Env) (p : Playback) (d : Document) (i : Nat) (flow : Flow) :
    (p.follow env d i flow).1.tether = p.tether := by
  unfold follow
  split
  · rfl
  · rfl
  · rfl
  · exact p.tether_resolveJump env _

theorem tether_complete (env : Env) (p : Playback) (i : Nat) (c : Completion) (eligible : Bool) :
    (p.complete env i c eligible).1.tether = p.tether := by
  unfold complete
  split
  · rfl
  · rename_i d hd
    have h := p.tether_follow env d i c.flow
    generalize p.follow env d i c.flow = r at h ⊢
    obtain ⟨q, e | ⟨next, j⟩⟩ := r
    · exact (q.tether_stop _).trans h
    · have hlock := (q.tether_lockNewest c.allowRollback).trans h
      dsimp only
      rw [tether_settle, tether_moveTo]
      split
      · exact (tether_capture _ next j c).trans hlock
      · exact hlock

theorem tether_begin (env : Env) (p : Playback) (d : Document) (i : Nat) (c : Command)
    (h : Handler) : (p.begin env d i c h).1.tether = p.tether := by
  have htrack := (Stays.trackRead env (p.withCursor { p.cursor with
    played := p.cursor.played + 1 }) ⟨d.name, i⟩).tether
  unfold begin
  dsimp only
  split
  · exact htrack
  · rename_i f hf
    generalize hr : Playback.complete env _ i _ h.eligible = r
    have hcomplete : r.1.tether = p.tether := by
      rw [← hr]
      exact (tether_complete env _ i _ _).trans htrack
    obtain ⟨q, e | u⟩ := r <;> exact hcomplete

theorem tether_checkForward (p : Playback) (d : Document) (i : Nat) :
    (p.checkForward d i).1.tether = p.tether := by
  unfold checkForward
  split
  · rfl
  · split <;> rfl

theorem tether_stepActive (env : Env) (p : Playback) (a : ActiveCommand) (delta : Nanoseconds) :
    (p.stepActive env a delta).1.tether = p.tether := by
  unfold stepActive
  dsimp only
  split
  · rfl
  · split
    · rfl
    · split
      · rfl
      · rename_i completion s hs
        generalize hr : Playback.complete env _ a.index completion a.eligible = r
        have hcomplete : r.1.tether = p.tether := hr ▸ tether_complete env _ a.index _ _
        obtain ⟨q, e | u⟩ := r <;> exact hcomplete
      · rename_i f s hs
        generalize hr : Playback.complete env _ a.index _ a.eligible = r
        have hcomplete : r.1.tether = p.tether := hr ▸ tether_complete env _ a.index _ _
        obtain ⟨q, e | u⟩ := r <;> exact hcomplete

theorem tether_interrupt (p : Playback) : p.interrupt.tether = p.tether.renew := by
  show p.cancelActive.renewScope.tether = _
  exact congrArg Tether.renew p.tether_cancelActive

/-- Only a halt at a command in flight opens a new scope. -/
theorem kept_renews (env : Env) (t : Tether) : Kept env (fun p => t.Renews p.tether) where
  begins {p d i c k} _ h := (tether_begin env p d i c k).symm ▸ h
  steps {p a} delta _ h := (tether_stepActive env p a delta).symm ▸ h
  reaches {p} d i h := (tether_checkForward p d i).symm ▸ h
  enters h := h
  faults {p} spot message h := (Stays.reportFault p spot message).tether.symm ▸ h
  moves _ h := h
  ends h := h
  drops h := h
  waits {p} delta h := (Stays.leaveWait env p delta).tether.symm ▸ h

theorem renews_interrupt {t : Tether} (h : t.Renews p.tether) :
    t.Renews p.interrupt.tether := by
  rw [tether_interrupt]
  exact h.trans ⟨1, rfl⟩

theorem renews_tick (env : Env) (p : Playback) (delta : Nanoseconds) :
    p.tether.Renews (p.tick env delta).1.tether :=
  (kept_renews env p.tether).tick renews_interrupt delta (.refl _)

theorem renews_fastForward (env : Env) (p : Playback) (target : Nat) :
    p.tether.Renews (p.fastForward env target).1.tether :=
  (kept_renews env p.tether).fastForward renews_interrupt (fun _ _ h => h) target (.refl _)

end Playback

end Playhead
