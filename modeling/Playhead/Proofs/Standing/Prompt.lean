import Playhead.Proofs.Standing.Counting
import Playhead.Proofs.Standing.Steady

/-!
While options are pending, playback waits for a selection after every command but those before a
`choice` command.
-/

namespace Playhead.Playback

variable {env : Env} {p q : Playback}

/-- Playback that ticks and continued input waits do not move. -/
def Blocked (p : Playback) : Prop :=
  p.player.isRunning = false ∨ p.cursor.waiting = true ∧ p.choicesPending = true

theorem Follows.grown {r : Playback} {l : List Note} {g : List ServiceSet}
    (hl : Follows env p l r g) (hq : r.plot <+: q.plot) :
    p.plot ++ l.filterMap Note.event? <+: q.plot := by
  rw [← hl.plot]
  exact hq

/-- Playback on whose way to another one there are only scripts that register no option and do not
halt. -/
def Quiet (env : Env) (p q : Playback) : Prop :=
  ∀ m t d, p.standing.Leads (p.shelf env) m t →
    p.plot ++ m.filterMap Note.event? <+: q.plot → t.document = some d →
      ∀ c ∈ d.commands.toList, Builtin.Steady c.name

namespace Quiet

variable {r : Playback} {l : List Note} {g : List ServiceSet}

theorem starts (h : Quiet env p q) {t : Standing} (hl : p.standing.Leads (p.shelf env) l t)
    (hq : p.plot ++ l.filterMap Note.event? <+: q.plot) : Standing.Starts l Builtin.Steady := by
  intro spot name hn
  obtain ⟨l₁, l₂, u, d, c, rfl, hu, hd, hc, rfl⟩ := hl.source hn
  refine h l₁ u d hu ?_ hd c hc
  rw [List.filterMap_append, ← List.append_assoc] at hq
  exact (List.prefix_append _ _).trans hq

theorem current (h : Quiet env p q) (hq : p.plot <+: q.plot) (name : String)
    (hc : p.standing.Current name) : Builtin.Steady name := by
  obtain ⟨-, d, i, c, hd, -, hi, rfl⟩ := hc
  obtain ⟨hlt, rfl⟩ := Array.getElem?_eq_some_iff.1 hi
  refine h [] p.standing d (.refl _) ?_ hd _ (Array.getElem_mem_toList hlt)
  rw [List.filterMap_nil, List.append_nil]
  exact hq

theorem follows (h : Quiet env p q) (hl : Follows env p l r g) : Quiet env r q := by
  intro m t d hm hq hd
  rw [hl.shelf] at hm
  refine h (l ++ m) t d (hl.leads.trans hm) ?_ hd
  rw [List.filterMap_append, ← List.append_assoc, ← hl.plot]
  exact hq

theorem pending (h : Quiet env p q) (hp : Sound env p) (hl : Follows env p l r g)
    (hq : r.plot <+: q.plot) : r.choicesPending = p.choicesPending := by
  have hq' := hl.grown hq
  have hsteady := hl.leads.steady hp.shelf (h.starts hl.leads hq')
    (h.current ((List.prefix_append _ _).trans hq'))
  have hchoices : r.services.choices = p.services.choices := hsteady.1
  unfold choicesPending ServiceSet.choicesPending
  rw [hchoices]

end Quiet

/-- Playback with options pending that has completed no command, or one after which it is
blocked. -/
def Halts (q : Playback) (g : List ServiceSet) : Prop :=
  g = [] ∧ q.choicesPending = true ∨ (∃ s, g = [s]) ∧ q.Blocked ∧ q.player.active = none

/-- A quiet way does not stray. -/
theorem Quiet.tracked (h : Quiet env p q) {g : List ServiceSet} {idle : Prop} {r : Playback}
    (ht : Tracked env p r g idle) (hq : r.plot <+: q.plot) :
    ∃ l, Follows env p l r g ∧ Sound env r ∧ (idle → r.player.active = none) := by
  rcases ht with hl | ⟨m, t, spot, name, hm, hn, hplot, -⟩
  · exact hl
  · refine absurd (h.starts hm (hplot.trans hq) spot name ?_).1 hn
    simp

end Playhead.Playback
