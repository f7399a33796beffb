import Playhead.Proofs.Standing.Path
import Playhead.Proofs.Standing.Tick

/-!
The commands of a way: where they stand, and how many were started and completed on it.
-/

namespace Playhead

namespace Standing

/-- The numbers of a way: of the commands that were started and of those that completed. The
services after it are those after the last command that completed. -/
structure Counted (s : Standing) (l : List Note) (t : Standing) : Prop where
  started : t.played = s.played + (executed l).length
  completed : (l.filterMap Note.after?).length + t.busy.toNat =
    (executed l).length + s.busy.toNat
  last : (l.filterMap Note.after?).getLast?.getD s.services = t.services

variable {w : Shelf} {s t u : Standing} {l m : List Note}

theorem Counted.trans (h : Counted s l t) (h' : Counted t m u) : Counted s (l ++ m) u where
  started := by
    rw [executed_append, List.length_append, h'.started, h.started, Nat.add_assoc]
  completed := by
    have h₁ := h.completed
    have h₂ := h'.completed
    rw [executed_append, List.filterMap_append, List.length_append, List.length_append]
    omega
  last := by
    rw [List.filterMap_append, List.getLast?_append]
    rw [← h'.last, ← h.last]
    cases (m.filterMap Note.after?).getLast? <;> rfl

theorem played_finish (w : Shelf) (s : Standing) (d : Document) (index : Nat)
    (done : Completion) (after : ServiceSet) :
    (s.finish w d index done after).2.played = s.played := by
  unfold finish
  dsimp only
  cases w.follow d index done.flow <;> rfl

theorem Moves.counted (h : Moves w s l t) : Counted s l t := by
  cases h with
  | start hd hi hc hb he hr =>
    refine ⟨rfl, ?_, rfl⟩
    rw [hb]
    rfl
  | @pass d index i c hd hi hc hb he =>
    have hnotes : executed (s.pass d i).1 = [] ∧ (s.pass d i).1.filterMap Note.after? = [] := by
      unfold Standing.pass
      dsimp only
      split <;> exact ⟨rfl, rfl⟩
    obtain ⟨hstarts, hafters⟩ := hnotes
    refine ⟨?_, ?_, ?_⟩
    · rw [hstarts]
      rfl
    · rw [hstarts, hafters]
      rfl
    · rw [hafters]
      rfl
  | @complete d index c k hd hi hc hb hr =>
    have hafters := Playback.afters_complete w s d index c k
    have hstarts : executed (s.complete w d index c k).1 = [] := executed_finish _ _ _ _ _ _
    have hbusy : (s.complete w d index c k).2.busy = false := busy_finish _ _ _ _ _ _
    have hplayed : (s.complete w d index c k).2.played = s.played := played_finish _ _ _ _ _ _
    refine ⟨?_, ?_, ?_⟩
    · rw [hstarts, hplayed]
      rfl
    · rw [hstarts, hafters, hbusy, hb]
      rfl
    · rw [hafters]
      rfl

theorem Leads.counted (h : s.Leads w l t) : Counted s l t := by
  induction h with
  | refl s => exact ⟨rfl, rfl, rfl⟩
  | step hs _ ih => exact (moves_of_next hs).counted.trans ih

/-- The services after a way are those before it or those after one of its commands. -/
theorem Leads.services_eq (h : s.Leads w l t) :
    t.services = s.services ∨ t.services ∈ l.filterMap Note.after? := by
  have hlast := h.counted.last
  cases hget : (l.filterMap Note.after?).getLast? with
  | none =>
    rw [hget] at hlast
    exact .inl hlast.symm
  | some a =>
    rw [hget] at hlast
    exact .inr (hlast ▸ List.mem_of_getLast? hget)

theorem document_finish (w : Shelf) (s : Standing) {d : Document} (hd : s.document = some d)
    (index : Nat) (done : Completion) (after : ServiceSet) :
    (s.finish w d index done after).2.document ≠ none := by
  unfold finish
  dsimp only
  cases w.follow d index done.flow with
  | error e =>
    show s.document ≠ none
    rw [hd]
    exact Option.some_ne_none d
  | ok r => exact Option.some_ne_none r.1

/-- A story does not leave its scripts. -/
theorem Leads.held (h : s.Leads w l t) (hs : s.document ≠ none) : t.document ≠ none := by
  induction h with
  | refl s => exact hs
  | step hnext _ ih =>
    refine ih ?_
    cases moves_of_next hnext with
    | start hd hi hc hb he hr => exact hs
    | pass hd hi hc hb he => exact Option.some_ne_none _
    | complete hd hi hc hb hr => exact document_finish _ _ hd _ _ _

/-- A command that is reported as started stands in a script that the story came to before. -/
theorem Leads.source (h : s.Leads w l t) {spot : Spot} {name : String}
    (hn : .event (.commandExecuted spot name) ∈ l) :
    ∃ l₁ l₂ u d c, l = l₁ ++ l₂ ∧ s.Leads w l₁ u ∧ u.document = some d ∧
      c ∈ d.commands.toList ∧ c.name = name := by
  induction h with
  | refl s => cases hn
  | @step s t v l m hs _ ih =>
    rcases List.mem_append.1 hn with hn | hn
    · cases moves_of_next hs with
      | @start d index c k hd hi hc hb he hr =>
        obtain ⟨hlt, rfl⟩ := Array.getElem?_eq_some_iff.1 hc
        simp only [start, List.mem_singleton, Note.event.injEq, Event.commandExecuted.injEq] at hn
        exact ⟨[], _, s, d, _, rfl, .refl s, hd, Array.getElem_mem_toList hlt, hn.2.symm⟩
      | @pass d index i c hd hi hc hb he =>
        unfold pass at hn
        dsimp only at hn
        split at hn <;> simp at hn
      | @complete d index c k hd hi hc hb hr =>
        have hnone : executed (s.complete w d index c k).1 = [] := executed_finish _ _ _ _ _ _
        have hmem : (spot, name) ∈ executed (s.complete w d index c k).1 :=
          List.mem_filterMap.2 ⟨_, List.mem_filterMap.2 ⟨_, hn, rfl⟩, rfl⟩
        rw [hnone] at hmem
        cases hmem
    · obtain ⟨l₁, l₂, u, d, c, rfl, hu, hd, hc, hname⟩ := ih hn
      exact ⟨l ++ l₁, l₂, u, d, c, (List.append_assoc _ _ _).symm, .step hs hu, hd, hc, hname⟩

end Standing

end Playhead
