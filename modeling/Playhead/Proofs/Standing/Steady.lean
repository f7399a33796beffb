import Playhead.Proofs.Standing.Path
import Playhead.Proofs.Standing.Sound
import Playhead.Proofs.State.Restore

/-!
Ways on which only some commands are started.

If none of them registers an option or halts, the options stay as they are and playback is not
halted. If all of them are built in, a story stays on its shelf and keeps its set of services.
-/

namespace Playhead

namespace Builtin

/-- Built-in commands that register no option and do not halt. -/
def Steady (name : String) : Prop :=
  name ∈ names ∧ name ≠ "choice" ∧ name ≠ "stop"

instance (name : String) : Decidable (Steady name) :=
  inferInstanceAs (Decidable (_ ∧ _ ∧ _))

end Builtin

namespace Standing

variable {w : Shelf} {s t : Standing} {l : List Note}

/-- Only a completion whose flow halts is noted as a halt. -/
theorem not_halted_finish {done : Completion} (hf : done.flow ≠ .stop) (w : Shelf)
    (s : Standing) (d : Document) (index : Nat) (after : ServiceSet) :
    .event (.stopped .command) ∉ (s.finish w d index done after).1 := by
  unfold finish
  dsimp only
  cases w.follow d index done.flow with
  | error e => simp
  | ok r =>
    intro h
    rcases List.mem_cons.1 h with h | h
    · cases h
    · exact not_halted_aftermath hf w.registry r.1 r.2 after h

theorem not_halted_pass (s : Standing) (d : Document) (i : Nat) :
    .event (.stopped .command) ∉ (s.pass d i).1 := by
  unfold pass
  dsimp only
  split <;> simp

theorem Leads.steady (hw : w.Sound) (h : s.Leads w l t) (hl : Starts l Builtin.Steady)
    (hs : ∀ name, s.Current name → Builtin.Steady name) :
    t.services.choices = s.services.choices ∧ .event (.stopped .command) ∉ l := by
  have hkeeps := h.keeps (m := []) (I := fun m u =>
    u.services.choices = s.services.choices ∧ .event (.stopped .command) ∉ m) ?_ hl hs
    ⟨rfl, List.not_mem_nil⟩
  · exact hkeeps.1
  · rintro m u l v hmove hu ⟨hchoices, hm⟩
    cases hmove with
    | start hd hi hc hb he hr =>
      refine ⟨hchoices, fun h => (List.mem_append.1 h).elim hm fun h => ?_⟩
      simp [start] at h
    | pass hd hi hc hb he =>
      exact ⟨hchoices, fun h => (List.mem_append.1 h).elim hm (not_halted_pass _ _ _)⟩
    | @complete d i c k hd hi hc hb hr =>
      obtain ⟨hname, hne, hne'⟩ := hu c.name ⟨hb, d, i, c, hd, hi, hc, rfl⟩
      have hmem := hw.mem_handlers hname hr
      have heq := hw.name_eq hname hr
      have hchoice : k ≠ Builtin.choice := by
        rintro rfl
        exact hne heq.symm
      have hstop : (k.outcome c ⟨d.name, i⟩ u.services).1.flow ≠ .stop := by
        intro hf
        rw [Builtin.eq_stop_of_flow hmem hf] at heq
        exact hne' heq.symm
      refine ⟨?_, fun h => (List.mem_append.1 h).elim hm (not_halted_finish hstop _ _ _ _ _)⟩
      rw [← hchoices, ← Builtin.choices_outcome hmem hchoice c ⟨d.name, i⟩ u.services]
      exact congrArg ServiceSet.choices (services_finish _ _ _ _ _ _)

end Standing

namespace Builtin

/-- A built-in command keeps the services of the game and those of the host. -/
theorem peers_outcome {h : Handler} (hm : h ∈ handlers) (c : Command) (spot : Spot)
    (s : ServiceSet) : s.Peers (h.outcome c spot s).2 := by
  have hrefl : s.Peers s := ⟨rfl, rfl, rfl, rfl, rfl⟩
  have hends := ends_outcome hm c spot s
  generalize h.outcome c spot s = r at hends ⊢
  obtain ⟨done, after⟩ := r
  cases hends with
  | print hs e waits => exact ⟨rfl, by simp [hs], rfl, rfl, rfl⟩
  | gosub hs hk target => exact ⟨rfl, rfl, rfl, by simp [hs], rfl⟩
  | returnToCaller hs hk => exact ⟨rfl, rfl, rfl, by simp [hs], rfl⟩
  | set hs ha => exact ⟨by simp [hs], rfl, rfl, rfl, rfl⟩
  | choice hs o => exact ⟨rfl, rfl, by simp [hs], rfl, rfl⟩
  | _ => exact hrefl

end Builtin

namespace Standing

variable {w : Shelf} {s t : Standing} {l : List Note}

/-- A standing on the shelf whose services are those of a story. -/
structure Domestic (w : Shelf) (s : Standing) : Prop where
  placed : s.Placed w
  story : s.services.story = s.services

theorem Leads.domestic (hw : w.Sound) (h : s.Leads w l t)
    (hl : Starts l (· ∈ Builtin.names)) (hc : ∀ name, s.Current name → name ∈ Builtin.names)
    (hs : s.Domestic w) : t.Domestic w ∧ s.services.Peers t.services := by
  have hkeeps := h.keeps (m := []) (P := (· ∈ Builtin.names))
    (I := fun _ u => u.Domestic w ∧ s.services.Peers u.services) ?_ hl hc
    ⟨hs, rfl, rfl, rfl, rfl, rfl⟩
  · exact hkeeps.1
  · rintro m u l v hmove hu ⟨hd, hp⟩
    cases hmove with
    | start hdoc hi hcmd hb he hr => exact ⟨⟨hd.placed, hd.story⟩, hp⟩
    | pass hdoc hi hcmd hb he =>
      have hshelf := (hd.placed _ _ hdoc hi).1
      exact ⟨⟨placed_moveTo { u with arrived := false } hshelf _, hd.story⟩, hp⟩
    | @complete d i c k hdoc hi hcmd hb hr =>
      have hshelf := (hd.placed _ _ hdoc hi).1
      have hmem := hw.mem_handlers (hu c.name ⟨hb, d, i, c, hdoc, hi, hcmd, rfl⟩) hr
      have hservices : (u.complete w d i c k).2.services =
          (k.outcome c ⟨d.name, i⟩ u.services).2 := services_finish _ _ _ _ _ _
      refine ⟨⟨placed_finish hw u hshelf i _ _, ?_⟩, ?_⟩
      · have hstory := Builtin.outcome_story hmem c ⟨d.name, i⟩ u.services
        rw [hd.story] at hstory
        rw [hservices]
        exact (congrArg Prod.snd hstory).symm
      · rw [hservices]
        exact hp.trans (Builtin.peers_outcome hmem c ⟨d.name, i⟩ u.services)

/-- A story stays in the scripts of its shelf. -/
theorem Leads.shelved (hw : w.Sound) (h : s.Leads w l t)
    (hs : ∀ d, s.document = some d → w.script d.name = .ok d) {d : Document}
    (hd : t.document = some d) : w.script d.name = .ok d := by
  induction h with
  | refl s => exact hs d hd
  | step hnext _ ih =>
    refine ih (fun d' hd' => ?_) hd
    cases moves_of_next hnext with
    | start hdoc hi hc hb he hr => exact hs d' hd'
    | pass hdoc hi hc hb he =>
      cases hd'
      exact hs _ hdoc
    | @complete d₀ i c k hdoc hi hc hb hr =>
      unfold complete finish at hd'
      dsimp only at hd'
      split at hd'
      · exact hs d' hd'
      · rename_i hf
        cases hd'
        exact Shelf.follow_on hw (hs d₀ hdoc) hf

end Standing

end Playhead
