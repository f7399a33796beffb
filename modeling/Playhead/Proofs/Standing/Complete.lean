import Playhead.Proofs.Standing.Shelf
import Playhead.Proofs.Standing.Story
import Playhead.Proofs.State.History

/-!
Completing a command: the position after it, the snapshot taken there and what playback does next.
-/

namespace Playhead

/-- Two snapshots that differ at most in whether the player may roll back to them. -/
def Snapshot.Alike (x y : Snapshot) : Prop :=
  y = { x with allowed := y.allowed }

namespace Snapshot.Alike

theorem refl (x : Snapshot) : x.Alike x := rfl

theorem trans {x y z : Snapshot} (h : x.Alike y) (h' : y.Alike z) : x.Alike z := by
  unfold Alike at h h' ⊢
  rw [h'] at *
  rw [h]

end Snapshot.Alike

/-- A snapshot that was taken at a standing. -/
structure Standing.Captured (t : Standing) (x : Snapshot) : Prop where
  idle : t.busy = false
  taken : ∃ d index records, t.document = some d ∧ t.index = some index ∧
    StateMap.collect t.services .game = .ok records ∧
    x = { Snapshot.make ⟨d.name, index⟩ d.revision t.played records with
      waiting := x.waiting, allowed := x.allowed }

theorem Standing.Captured.alike {t : Standing} {x y : Snapshot} (h : t.Captured x)
    (hxy : x.Alike y) : t.Captured y := by
  obtain ⟨d, index, records, hd, hi, hr, hx⟩ := h.taken
  refine ⟨h.idle, d, index, records, hd, hi, hr, ?_⟩
  unfold Snapshot.Alike at hxy
  rw [hxy, hx]

namespace RollbackStack

theorem mem_modifyLast {f : Snapshot → Snapshot} {l : List Snapshot} {y : Snapshot}
    (h : y ∈ modifyLast f l) : ∃ x ∈ l, y = x ∨ y = f x := by
  induction l with
  | nil => cases h
  | cons a rest ih =>
    cases rest with
    | nil => exact ⟨a, List.mem_cons_self, .inr (List.mem_singleton.1 h)⟩
    | cons b rest =>
      rcases List.mem_cons.1 h with rfl | h
      · exact ⟨y, List.mem_cons_self, .inl rfl⟩
      · obtain ⟨x, hx, hy⟩ := ih h
        exact ⟨x, List.mem_cons_of_mem _ hx, hy⟩

theorem mem_allowNewest {s : RollbackStack} {allowed : Bool} {y : Snapshot}
    (h : y ∈ (s.allowNewest allowed).snapshots) : ∃ x ∈ s.snapshots, x.Alike y := by
  obtain ⟨x, hx, rfl | rfl⟩ := mem_modifyLast h
  · exact ⟨y, hx, .refl y⟩
  · exact ⟨x, hx, rfl⟩

end RollbackStack

namespace Playback

theorem standing_moveTo (p : Playback) (d : Document) (index : Nat) (atEnd : StopReason) :
    (p.moveTo d index atEnd).standing = p.standing.moveTo d index := by
  have h := (Stays.enterScript p d).standing
  unfold moveTo Standing.moveTo
  rw [← h]
  by_cases hi : d.size ≤ index
  · rw [if_pos hi, if_neg (Nat.not_lt.2 hi)]
    rfl
  · rw [if_neg hi, if_pos (Nat.lt_of_not_le hi)]
    rfl

theorem plot_moveTo (p : Playback) (d : Document) (index : Nat) (atEnd : StopReason) :
    (p.moveTo d index atEnd).plot =
      p.plot ++ if d.size ≤ index then [.stopped atEnd] else [] := by
  have h := (Stays.enterScript p d).plot
  unfold moveTo
  split
  · exact (plot_emit _ _).trans (congrArg (· ++ [Event.stopped atEnd]) h)
  · rw [List.append_nil]
    exact h

theorem keeps_moveTo (p : Playback) (d : Document) (index : Nat) (atEnd : StopReason) :
    Keeps p (p.moveTo d index atEnd) := by
  have h := (Stays.enterScript p d).toKeeps
  unfold moveTo
  split <;> exact h.trans ⟨rfl, rfl, rfl⟩

theorem halted_moveTo (p : Playback) (d : Document) (index : Nat) (atEnd : StopReason) :
    (p.moveTo d index atEnd).player.halted = true → p.player.halted = true := by
  have h := (Stays.enterScript p d).halted
  unfold moveTo
  split <;> exact h

/-- What playback notes while it settles at the position after a command. -/
def settling (p : Playback) (c : Completion) (adds : Bool) : List Event :=
  if p.cursor.isStopped then []
  else if c.flow = .stop then [.stopped .command]
  else if p.choicesPending && !adds then [.choicePresented p.services.pendingChoices]
  else []

theorem presentChoices_stays (p : Playback) :
    ∃ q, Stays p q ∧
      p.presentChoices = q.emit (.choicePresented p.services.pendingChoices) := by
  unfold presentChoices
  dsimp only
  split
  · exact ⟨_, (Stays.setSkip p false).trans (Stays.enterWait _), rfl⟩
  · exact ⟨_, Stays.enterWait p, rfl⟩

theorem settle_eq (p : Playback) (c : Completion) (adds : Bool) :
    (p.settle c adds).standing = p.standing ∧
      (p.settle c adds).plot = p.plot ++ p.settling c adds ∧ Keeps p (p.settle c adds) ∧
      ((p.settle c adds).player.halted = true →
        p.player.halted = true ∨ .stopped .command ∈ p.settling c adds) := by
  unfold settle settling
  split
  · exact ⟨rfl, (List.append_nil _).symm, ⟨rfl, rfl, rfl⟩, .inl⟩
  · split
    · exact ⟨rfl, plot_emit _ _, ⟨rfl, rfl, rfl⟩, fun _ => .inr List.mem_cons_self⟩
    · split
      · obtain ⟨q, hq, he⟩ := presentChoices_stays p
        rw [he]
        refine ⟨hq.standing, ?_, hq.toKeeps.trans ⟨rfl, rfl, rfl⟩, fun h => .inl (hq.halted h)⟩
        rw [plot_emit, hq.plot]
        rfl
      · split
        · have h := Stays.enterWait p
          exact ⟨h.standing, by rw [h.plot, List.append_nil], h.toKeeps,
            fun hh => .inl (h.halted hh)⟩
        · exact ⟨rfl, (List.append_nil _).symm, ⟨rfl, rfl, rfl⟩, .inl⟩

theorem lockNewest_eq (p : Playback) (allow : Bool) :
    ∃ m, p.lockNewest allow = { p with manager := m } ∧
      ∀ y ∈ m.stack.snapshots, ∃ x ∈ p.manager.stack.snapshots, x.Alike y := by
  unfold lockNewest
  split
  · exact ⟨p.manager, rfl, fun y hy => ⟨y, hy, .refl y⟩⟩
  · exact ⟨_, rfl, fun y hy => RollbackStack.mem_allowNewest hy⟩

theorem capture_eq (p : Playback) (d : Document) (next : Nat) (c : Completion) :
    ∃ q m, Stays p q ∧ p.capture d next c = { q with manager := m } ∧
      ∀ y ∈ m.stack.snapshots, y ∈ p.manager.stack.snapshots ∨
        ∃ records, StateMap.collect p.services .game = .ok records ∧
          y = { Snapshot.make ⟨d.name, next⟩ d.revision p.cursor.played records with
            waiting := y.waiting, allowed := y.allowed } := by
  unfold capture StateManager.capture
  cases hr : StateMap.collect p.services .game with
  | error e => exact ⟨p, p.manager, .refl p, rfl, fun y hy => .inl hy⟩
  | ok records =>
    dsimp only
    obtain ⟨x, hx⟩ : ∃ x : Snapshot, x = { Snapshot.make ⟨d.name, next⟩ d.revision
        p.cursor.played records with
        waiting := c.waitForInput, allowed := c.allowRollback && c.waitForInput } := ⟨_, rfl⟩
    rw [← hx]
    cases hpush : p.manager.stack.push x with
    | mk stack evicted =>
      have hmem : ∀ y ∈ stack.snapshots, y ∈ p.manager.stack.snapshots ∨
          ∃ records', Except.ok records = (Except.ok records' : Except ServiceError StateMap) ∧
            y = { Snapshot.make ⟨d.name, next⟩ d.revision p.cursor.played records' with
              waiting := y.waiting, allowed := y.allowed } := by
        intro y hy
        have hy' : y ∈ (p.manager.stack.push x).1.snapshots := by rwa [hpush]
        rcases RollbackStack.mem_push hy' with h | h
        · exact .inl h
        · refine .inr ⟨records, rfl, ?_⟩
          rw [h, hx]
      cases evicted with
      | none => exact ⟨p, _, .refl p, rfl, hmem⟩
      | some x => exact ⟨p.emit (.snapshotEvicted x.played), _, .emit p rfl, rfl, hmem⟩

/-- A step from one playback to another that makes one step of the standing: what it notes is
noted, and every snapshot is an old one or was taken at the new standing. -/
structure Makes (env : Env) (p : Playback) (r : List Note × Standing) (eligible : Bool)
    (q : Playback) : Prop where
  standing : q.standing = r.2
  plot : q.plot = p.plot ++ r.1.filterMap Note.event?
  shelf : q.shelf env = p.shelf env
  scopes : q.scopes = p.scopes
  scope : q.player.scope = p.player.scope
  forward : q.player.fastForward = none
  halted : q.player.halted = true →
    p.player.halted = true ∨ .event (.stopped .command) ∈ r.1
  stack : ∀ y ∈ q.manager.stack.snapshots,
    (∃ x ∈ p.manager.stack.snapshots, x.Alike y) ∨ eligible = true ∧ r.2.Captured y

theorem stop_of_idle {p : Playback} (ha : p.player.active = none) (reason : StopReason) :
    p.stop reason = { p with player := { p.player with
      cursor := { p.cursor with index := none, waiting := false }
      halted := false
      fastForward := none } }.emit (.stopped reason) := by
  unfold stop
  rw [cancelActive_of_idle ha]

theorem settling_moveTo (p : Playback) (next : Document) (index : Nat) (done : Completion)
    (registry : Registry) :
    let atEnd : StopReason := if done.flow = .stop then .command else .endOfScript
    (if next.size ≤ index then [.stopped atEnd] else []) ++
        (p.moveTo next index atEnd).settling done (addsChoice registry next index) =
      (Standing.aftermath registry done next index p.services.story).filterMap Note.event? := by
  intro atEnd
  have hindex := congrArg Standing.index (standing_moveTo p next index atEnd)
  have hservices : (p.moveTo next index atEnd).services = p.services := by
    unfold moveTo enterScript
    dsimp only
    split <;> split <;> rfl
  have hpending : p.services.story.choicesPending = p.services.choicesPending := rfl
  have hoptions : p.services.story.pendingChoices = p.services.pendingChoices := rfl
  unfold settling Standing.aftermath
  rw [Cursor.isStopped, choicesPending, hservices, hpending, hoptions]
  by_cases hi : next.size ≤ index
  · have hstop : (p.moveTo next index atEnd).cursor.index = none :=
      hindex.trans (if_neg (Nat.not_lt.2 hi))
    rw [hstop, if_pos hi, if_pos hi]
    rfl
  · have hgo : (p.moveTo next index atEnd).cursor.index = some index :=
      hindex.trans (if_pos (Nat.lt_of_not_le hi))
    rw [hgo, if_neg hi, if_neg hi, List.nil_append]
    dsimp only [Option.isNone]
    repeat' split
    all_goals first | rfl | contradiction

theorem mem_of_events {l : List Note} {e : Event} (h : e ∈ l.filterMap Note.event?) :
    .event e ∈ l := by
  obtain ⟨n, hn, he⟩ := List.mem_filterMap.1 h
  cases n with
  | after t => cases he
  | event f =>
    cases he
    exact hn

/-- Moving on behind a command and settling there notes the aftermath of the command. -/
theorem settle_moveTo (p : Playback) (next : Document) (index : Nat) (done : Completion)
    (registry : Registry) :
    let l := (Standing.aftermath registry done next index p.services.story).filterMap Note.event?
    let q := (p.moveTo next index (if done.flow = .stop then .command else .endOfScript)).settle
      done (addsChoice registry next index)
    q.standing = p.standing.moveTo next index ∧ q.plot = p.plot ++ l ∧ Keeps p q ∧
      (q.player.halted = true → p.player.halted = true ∨ .stopped .command ∈ l) := by
  have hnotes := settling_moveTo p next index done registry
  dsimp only at hnotes ⊢
  rw [← hnotes]
  generalize (if done.flow = .stop then StopReason.command else .endOfScript) = atEnd
  obtain ⟨hsettled, hnoted, hkept, hhalted⟩ :=
    settle_eq (p.moveTo next index atEnd) done (addsChoice registry next index)
  refine ⟨hsettled.trans (standing_moveTo p next index atEnd), ?_,
    (keeps_moveTo p next index atEnd).trans hkept, fun h => ?_⟩
  · rw [hnoted, plot_moveTo, List.append_assoc]
  · rcases hhalted h with h | h
    · exact .inl (halted_moveTo p next index atEnd h)
    · exact .inr (List.mem_append_right _ h)

/-- Whatever is captured between the command and the move is taken at the standing after both. -/
theorem capture_captured {q : Playback} (next : Document) (i : Nat) (done : Completion)
    (eligible : Bool) (hq : q.player.active = none) :
    ∃ r m, Stays q r ∧
      (if eligible && i < next.size then (q.lockNewest done.allowRollback).capture next i done
        else q.lockNewest done.allowRollback) = { r with manager := m } ∧
      ∀ y ∈ m.stack.snapshots,
        (∃ x ∈ q.manager.stack.snapshots, x.Alike y) ∨
          eligible = true ∧ (q.standing.moveTo next i).Captured y := by
  obtain ⟨m, hm, hold⟩ := lockNewest_eq q done.allowRollback
  rw [hm]
  split
  · rename_i hc
    have hc' := Bool.and_eq_true_iff.1 hc
    have hi : i < next.size := of_decide_eq_true hc'.2
    obtain ⟨r, m', hr, he, hnew⟩ := capture_eq { q with manager := m } next i done
    refine ⟨{ r with manager := q.manager }, m', ?_, he, ?_⟩
    · exact ⟨⟨hr.backdrop, rfl, hr.active⟩, hr.standing, hr.plot, hr.halted⟩
    · intro y hy
      rcases hnew y hy with h | ⟨records, hrec, hy⟩
      · exact .inl (hold y h)
      · right
        refine ⟨hc'.1, ?_, next, i, records, rfl, if_pos hi, ?_, hy⟩
        · show q.player.active.isSome = false
          rw [hq]
          rfl
        · exact (StateMap.collect_story q.services).trans hrec
  · exact ⟨q, m, .refl q, rfl, fun y hy => .inl (hold y hy)⟩

/-- Completing a command when none is in flight goes on as the rules say. -/
theorem complete_makes (env : Env) {p : Playback} {d : Document}
    (hd : p.player.document = some d) (ha : p.player.active = none)
    (hf : p.player.fastForward = none) (index : Nat) (done : Completion) (eligible : Bool) :
    Makes env p (p.standing.finish (p.shelf env) d index done p.services.story) eligible
        (p.complete env index done eligible).1 ∧
      (p.complete env index done eligible).1.player.active = none := by
  obtain ⟨k, hk, hs⟩ := follow_eq env hd index done.flow
  obtain ⟨q, hq⟩ : ∃ q : Playback, q = { p with
      library := k
      player := { p.player with arrivedByBranch := p.standing.arrives d index done.flow } } :=
    ⟨_, rfl⟩
  have hstanding : q.standing = { p.standing with
      arrived := p.standing.arrives d index done.flow
      busy := false
      services := p.services.story } := by
    have hbusy : p.player.active.isSome = false := by rw [ha]; rfl
    rw [hq, ← hbusy]
    rfl
  have hplot : q.plot = p.plot := by rw [hq]; rfl
  have hshelf : q.shelf env = p.shelf env := by rw [hq]; exact hs
  have hscopes : q.scopes = p.scopes := by rw [hq]
  have hscope : q.player.scope = p.player.scope := by rw [hq]
  have hforward : q.player.fastForward = none := by rw [hq]; exact hf
  have hplayer : q.player.halted = p.player.halted := by rw [hq]
  have hmanager : q.manager = p.manager := by rw [hq]
  have hactive : q.player.active = none := by rw [hq]; exact ha
  rw [← hq] at hk
  clear hq
  unfold complete Standing.finish
  simp only [hd, hk]
  cases hw : (p.shelf env).follow d index done.flow with
  | error e =>
    dsimp only
    rw [stop_of_idle hactive]
    refine ⟨⟨?_, ?_, hshelf, hscopes, hscope, rfl, nofun, ?_⟩, hactive⟩
    · exact congrArg (fun t : Standing => { t with index := none }) hstanding
    · rw [plot_emit]
      exact congrArg (· ++ _) hplot
    · intro y hy
      exact .inl ⟨y, hmanager ▸ hy, .refl y⟩
  | ok r =>
    obtain ⟨next, i⟩ := r
    obtain ⟨r, m, hr, he, hstack⟩ := capture_captured next i done eligible hactive
    dsimp only
    rw [he]
    have hstory : r.services.story = p.services.story :=
      congrArg Standing.services (hr.standing.trans hstanding)
    have hsettle := settle_moveTo { r with manager := m } next i done env.source.registry
    rw [show ({ r with manager := m } : Playback).services.story = _ from hstory] at hsettle
    dsimp only at hsettle
    obtain ⟨hmoved, hnoted, hkept, hhalted⟩ := hsettle
    generalize (({ r with manager := m } : Playback).moveTo next i
      (if done.flow = .stop then .command else .endOfScript)).settle done
      (addsChoice env.source.registry next i) = u at hmoved hnoted hkept hhalted ⊢
    have hback : u.backdrop = q.backdrop := hkept.backdrop.trans hr.backdrop
    have hend : u.standing = q.standing.moveTo next i :=
      hmoved.trans (congrArg (·.moveTo next i) hr.standing)
    refine ⟨⟨?_, ?_, ?_, ?_, ?_, ?_, ?_, ?_⟩, ?_⟩
    · rw [hend, hstanding]
    · rw [hnoted]
      exact congrArg (· ++ _) (hr.plot.trans hplot)
    · exact (shelf_of_backdrop env hback).trans hshelf
    · exact (congrArg Backdrop.scopes hback).trans hscopes
    · exact (congrArg Backdrop.scope hback).trans hscope
    · exact (congrArg Backdrop.fastForward hback).trans hforward
    · intro hh
      rcases hhalted hh with hh | hh
      · exact .inl (hplayer ▸ hr.halted hh)
      · exact .inr (List.mem_cons_of_mem _ (mem_of_events hh))
    · intro y hy
      rw [hkept.manager] at hy
      rcases hstack y hy with h | h
      · exact .inl (hmanager ▸ h)
      · rw [hstanding] at h
        exact .inr h
    · exact (hkept.active.trans hr.active).trans hactive

end Playback

end Playhead
