import Playhead.Proofs.Engine.Chronicle
import Playhead.Proofs.Motion.Calls

/-!
A `return` goes to the command after the `gosub` whose place it takes off the call stack, through
rollbacks, saves and loads, as long as the script of the `gosub` is held in the revision that it
had then. Places outlive the content they belong to: nothing tells a `return` that it has changed.
-/

namespace Playhead

open Playback (Move)

/-- The moves that were made account for all places on the call stack, if the commands of the host
leave it alone. -/
theorem ledger_callStack : Ledger .callStack (Task.Respects (·.callStack)) Playback.Framed where
  whole := trivial
  builtin _ ht hhost := absurd hhost ht
  stems h ht := ht.stems h
  present := by
    rintro H s ⟨k, hk : s.callStack = some k, -⟩
    unfold ServiceSet.keys
    rw [hk]
    simp
  congr hs h := h.congr hs
  more hK h := h.more hK
  reset := by
    rintro H s ⟨k, hk : s.callStack = some k, -⟩
    refine ⟨.empty, ?_, fun f hf => by cases hf⟩
    show s.callStack.map _ = _
    rw [hk]
    rfl
  cancel ht h := h.congr (ht.cancel _)
  aside := by
    rintro H s t ctx ht hctx ⟨k, hk, hall⟩
    obtain ⟨k', hk', hsub⟩ := ht.frames_step hctx hk
    exact ⟨k', hk', fun f hf => hall f (hsub f hf)⟩
  move h ha hp := h.framed ha hp

namespace Engine

variable {l earlier later : List Move} {e : Engine} {m : Move} {f : Spot}

/-- What a `return` takes off the call stack was put there by a `gosub`. Whenever the script of one
that put it there is held in the same revision, the `return` is refused or comes to the command
after this `gosub` in this revision. -/
theorem Chronicle.return_comesBack
    (h : Chronicle (Task.Respects (·.callStack)) .callStack l e) (hl : l = earlier ++ m :: later)
    (hf : m.returned? = some f) :
    (∃ g ∈ earlier, ∃ c i, g.called? = some (c, i) ∧ f = ⟨c.name, i + 1⟩) ∧
      ∀ g ∈ earlier, ∀ c i, g.called? = some (c, i) → f = ⟨c.name, i + 1⟩ →
        m.before.HoldsStill c → m.Refused ∨ ∃ d, d.name = c.name ∧ d.revision = c.revision ∧
          m.after.ComesTo d (i + 1) := by
  obtain ⟨-, htold⟩ := h.bears ledger_callStack fun H preferences host =>
    ⟨.empty, rfl, fun f hf => by cases hf⟩
  obtain ⟨env, hsited, hstep, hbears⟩ := htold earlier m later hl
  constructor
  · obtain ⟨a, k, k', -, -, hk, hpop, -⟩ := Move.returned?_eq_some hf
    obtain ⟨k₀, hk₀, hframes⟩ := hbears.services
    cases hk.symm.trans hk₀
    obtain ⟨g, hg, heq⟩ := Option.map_eq_some_iff.1 hpop
    cases heq
    exact hframes f (List.mem_of_getLast? hg)
  · rintro g - c i - rfl ⟨d', hget, hrevision⟩
    refine (hstep.comesBack hsited hf).imp_right ?_
    rintro ⟨d, hname, hcomes, hheld⟩
    exact ⟨d, hname, (hheld d' hget).symm.trans hrevision, hcomes⟩

/-- A visit to another script, which is saved and taken up again on the way. -/
def visitAndBack : List Operation :=
  [.loadScript "a" "@gosub b\n@print home\n", .loadScript "b" "@wait i\n@return\n",
    .playFrom "a" 0, .input (.tick 0), .save "x", .load "x", .input .goOn, .input (.tick 0)]

theorem comesBack_visit : ∃ l e earlier m later c i,
    Chronicle (Task.Respects (·.callStack)) .callStack l e ∧ l = earlier ++ m :: later ∧
      m.returned? = some ⟨c.name, i + 1⟩ ∧
      (∃ g ∈ earlier, g.called? = some (c, i)) ∧ m.before.HoldsStill c ∧
      m.after.cursor.spot? = some ⟨"a", 1⟩ ∧
      (m.Refused ∨ ∃ d, d.name = c.name ∧ d.revision = c.revision ∧ m.after.ComesTo d (i + 1)) := by
  have hrun : ((build {} {}).toOption.any fun e =>
      (e.movesAll visitAndBack)[1]?.any fun g => (e.movesAll visitAndBack)[5]?.any fun m =>
        g.called?.any fun call => m.returned? = some ⟨call.1.name, call.2 + 1⟩ ∧
          ((m.before.library.get? call.1.name).any fun d => d.revision = call.1.revision) = true ∧
          m.after.cursor.spot? = some ⟨"a", 1⟩) = true := by
    decide +kernel
  obtain ⟨e, he, hrun⟩ := (Option.any_eq_true _ _).1 hrun
  obtain ⟨g, hg, hrun⟩ := (Option.any_eq_true _ _).1 hrun
  obtain ⟨m, hm, hrun⟩ := (Option.any_eq_true _ _).1 hrun
  obtain ⟨⟨c, i⟩, hcalled, hcheck⟩ := (Option.any_eq_true _ _).1 hrun
  obtain ⟨hreturned, hheld, hspot⟩ := of_decide_eq_true hcheck
  have h : Chronicle (Task.Respects (·.callStack)) .callStack (e.movesAll visitAndBack)
      (e.performAll visitAndBack) := chronicle_of_trusts (eq_ok_of_toOption he) rfl
  obtain ⟨earlier, later, hl, hmem⟩ := exists_split hg hm (by decide)
  have hholds : m.before.HoldsStill c := by
    obtain ⟨d, hd, hrevision⟩ := (Option.any_eq_true _ _).1 hheld
    exact ⟨d, hd, of_decide_eq_true hrevision⟩
  exact ⟨_, _, earlier, m, later, c, i, h, hl, hreturned, ⟨g, hmem, hcalled⟩, hholds, hspot,
    (h.return_comesBack hl hreturned).2 g hmem c i hcalled rfl hholds⟩

/-- A visit to another script, while which the one that called it is replaced. -/
def visitAndElsewhere : List Operation :=
  [.loadScript "a" "@gosub b\n@print home\n", .loadScript "b" "@wait i\n@return\n",
    .playFrom "a" 0, .input (.tick 0), .loadScript "a" "@print one\n@print two\n@print three\n",
    .input .goOn, .input (.tick 0)]

/-- The `return` is not refused: it goes to the index of old in the new content. -/
theorem comesBack_elsewhere : ∃ l e earlier m later g c i,
    Chronicle (Task.Respects (·.callStack)) .callStack l e ∧ l = earlier ++ m :: later ∧
      g ∈ earlier ∧ g.called? = some (c, i) ∧ m.returned? = some ⟨c.name, i + 1⟩ ∧
      m.after.cursor.spot? = some ⟨c.name, i + 1⟩ ∧ m.after.cursor.revision ≠ c.revision := by
  have hrun : ((build {} {}).toOption.any fun e =>
      (e.movesAll visitAndElsewhere)[1]?.any fun g =>
      (e.movesAll visitAndElsewhere)[5]?.any fun m =>
        g.called?.any fun call => m.returned? = some ⟨call.1.name, call.2 + 1⟩ ∧
          m.after.cursor.spot? = some ⟨call.1.name, call.2 + 1⟩ ∧
          m.after.cursor.revision ≠ call.1.revision) = true := by
    decide +kernel
  obtain ⟨e, he, hrun⟩ := (Option.any_eq_true _ _).1 hrun
  obtain ⟨g, hg, hrun⟩ := (Option.any_eq_true _ _).1 hrun
  obtain ⟨m, hm, hrun⟩ := (Option.any_eq_true _ _).1 hrun
  obtain ⟨⟨c, i⟩, hcalled, hcheck⟩ := (Option.any_eq_true _ _).1 hrun
  obtain ⟨hreturned, hspot, hrevision⟩ := of_decide_eq_true hcheck
  have h : Chronicle (Task.Respects (·.callStack)) .callStack (e.movesAll visitAndElsewhere)
      (e.performAll visitAndElsewhere) := chronicle_of_trusts (eq_ok_of_toOption he) rfl
  obtain ⟨earlier, later, hl, hmem⟩ := exists_split hg hm (by decide)
  exact ⟨_, _, earlier, m, later, g, c, i, h, hl, hmem, hcalled, hreturned, hspot, hrevision⟩

end Engine

end Playhead
