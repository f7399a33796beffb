import Playhead.Proofs.Standing.Steady
import Playhead.Proofs.Standing.Walk

/-!
Scripts that never leave themselves: no command of theirs halts, offers options, calls or returns,
and every jump is to a label of the script itself.
-/

namespace Playhead

namespace Builtin

/-- The commands that a transient script carries out in the way of the main one. -/
def shared : List String :=
  ["print", "set", "lock", "wait", "if", "elseif", "else", "endif", "goto"]

theorem steady_of_shared {name : String} (h : name ∈ shared) : Steady name :=
  (by decide : ∀ n ∈ shared, Steady n) name h

end Builtin

/-- Whether a target is a label of the script of a name, seen from that script. -/
def JumpTarget.Local (name : String) : JumpTarget → Prop
  | .label script (some _) => script = none ∨ script = some name
  | _ => False

/-- Whether a flow stays in the script of a name and does not halt. -/
def Flow.Stays (name : String) : Flow → Prop
  | .advance | .branch _ => True
  | .jump target => target.Local name
  | .stop => False

/-- A script that is played in the same way beside the main one. -/
structure Document.Enclosed (d : Document) : Prop where
  names : ∀ c ∈ d.commands.toList, c.name ∈ Builtin.shared
  jumps : ∀ c ∈ d.commands.toList, c.name = Builtin.goto.name → ∀ target,
    Builtin.goto.begin c = .ok (.jump target false) → target.Local d.name

instance (name : String) : DecidablePred (JumpTarget.Local name)
  | .label script (some _) => inferInstanceAs (Decidable (script = none ∨ script = some name))
  | .label _ none => isFalse id
  | .spot _ => isFalse id

/-- Whether a jump, if a command is one, is to a label of the script of a name. -/
def Command.jumpsInside (c : Command) (name : String) : Bool :=
  match Builtin.goto.begin c with
  | .ok (.jump target _) => target.Local name
  | _ => true

theorem Document.enclosed_iff (d : Document) : d.Enclosed ↔ ∀ c ∈ d.commands.toList,
    c.name ∈ Builtin.shared ∧ (c.name = Builtin.goto.name → c.jumpsInside d.name = true) := by
  constructor
  · intro hd c hc
    refine ⟨hd.names c hc, fun hn => ?_⟩
    unfold Command.jumpsInside
    cases hbegin : Builtin.goto.begin c with
    | error f => rfl
    | ok t =>
      obtain ⟨target, rfl⟩ := Builtin.exists_of_beginJump hbegin
      exact decide_eq_true (hd.jumps c hc hn target hbegin)
  · intro h
    refine ⟨fun c hc => (h c hc).1, fun c hc hn target hbegin => ?_⟩
    have hinside := (h c hc).2 hn
    unfold Command.jumpsInside at hinside
    rw [hbegin] at hinside
    exact of_decide_eq_true hinside

instance : DecidablePred Document.Enclosed :=
  fun d => decidable_of_iff _ d.enclosed_iff.symm

theorem stays_ofFault (role : BlockRole) (name : String) :
    (Completion.ofFault role).flow.Stays name := by
  cases role <;> exact trivial

section

variable {w : Shelf} {d : Document} {i : Nat} {c : Command} {h : Handler}

theorem Document.Enclosed.name (hd : d.Enclosed) (hc : d.command? i = some c) :
    c.name ∈ Builtin.shared :=
  hd.names c (Document.mem_of_command? hc)

theorem Document.Enclosed.current (hd : d.Enclosed) {s : Standing} (hs : s.document = some d)
    {name : String} (hcur : s.Current name) : name ∈ Builtin.shared := by
  obtain ⟨-, d', i, c, hd', -, hc, rfl⟩ := hcur
  cases hs.symm.trans hd'
  exact hd.name hc

/-- However a command of an enclosed script ends, playback stays in the script. -/
theorem Document.Enclosed.outcome_stays (hd : d.Enclosed) (hw : w.Sound)
    (hc : d.command? i = some c) (hget : w.registry.get? c.name = some h) (spot : Spot)
    (s : ServiceSet) : (h.outcome c spot s).1.flow.Stays d.name := by
  have hshared := hd.name hc
  have hname := (Builtin.steady_of_shared hshared).1
  have hmem := hw.mem_handlers hname hget
  have heq := hw.name_eq hname hget
  by_cases hgoto : h = Builtin.goto
  · obtain ⟨hi, rfl⟩ := Array.getElem?_eq_some_iff.1 hc
    subst hgoto
    unfold Handler.outcome
    cases hbegin : Builtin.goto.begin d.commands[i] with
    | error f => exact stays_ofFault _ _
    | ok t =>
      obtain ⟨target, rfl⟩ := Builtin.exists_of_beginJump hbegin
      exact hd.jumps _ (Array.getElem_mem_toList hi) heq.symm _ hbegin
  · rw [← heq] at hshared
    have hends := Builtin.ends_outcome hmem c spot s
    generalize h.outcome c spot s = r at hends ⊢
    obtain ⟨done, after⟩ := r
    cases hends with
    | fault => exact stays_ofFault _ _
    | goto target => exact absurd rfl hgoto
    | gosub | returnToCaller | stop => exact absurd hshared (by decide)
    | _ => exact trivial

/-- A flow that stays leads to the script itself. -/
theorem Shelf.follow_stays {flow : Flow} (hf : flow.Stays d.name) {d' : Document} {j : Nat}
    (h : w.follow d i flow = .ok (d', j)) : d' = d := by
  cases flow with
  | jump target =>
    obtain ⟨script, _ | label⟩ | spot := target
    · exact hf.elim
    · have hown : w.document d (script.getD d.name) = .ok d := by
        rcases hf with rfl | rfl <;> exact if_pos rfl
      simp only [Shelf.follow, Shelf.resolve, hown] at h
      split at h
      · exact (Prod.mk.inj (Except.ok.inj h)).1.symm
      · cases h
    · exact hf.elim
  | stop => exact hf.elim
  | _ => exact (Prod.mk.inj (Except.ok.inj h)).1.symm

end

namespace Standing

variable {w : Shelf} {s t : Standing} {l : List Note} {d : Document}

theorem document_finish_of_stays {done : Completion} (hf : done.flow.Stays d.name)
    (hs : s.document = some d) (i : Nat) (after : ServiceSet) :
    (s.finish w d i done after).2.document = some d := by
  unfold finish
  dsimp only
  cases hfollow : w.follow d i done.flow with
  | error e => exact hs
  | ok r =>
    obtain ⟨d', j⟩ := r
    exact congrArg some (Shelf.follow_stays hf hfollow)

/-- What is played of an enclosed script stays in it. -/
theorem Moves.enclosed (hd : d.Enclosed) (hw : w.Sound) (h : Moves w s l t)
    (hs : s.document = some d) : t.document = some d ∧ Starts l (· ∈ Builtin.shared) := by
  cases h with
  | start hd' hi hc hb he hr =>
    cases hs.symm.trans hd'
    refine ⟨hs, fun spot name hn => ?_⟩
    cases List.mem_singleton.1 hn
    exact hd.name hc
  | pass hd' hi hc hb he =>
    cases hs.symm.trans hd'
    exact ⟨rfl, starts_of_executed (executed_pass _ _ _)⟩
  | complete hd' hi hc hb hr =>
    cases hs.symm.trans hd'
    exact ⟨document_finish_of_stays (hd.outcome_stays hw hc hr _ _) hs _ _,
      starts_of_executed (executed_finish _ _ _ _ _ _)⟩

theorem Leads.enclosed (hd : d.Enclosed) (hw : w.Sound) (h : Leads w s l t)
    (hs : s.document = some d) : t.document = some d ∧ Starts l (· ∈ Builtin.shared) := by
  induction h with
  | refl s => exact ⟨hs, fun _ _ h => by cases h⟩
  | step hnext _ ih =>
    obtain ⟨hdoc, hstarts⟩ := (moves_of_next hnext).enclosed hd hw hs
    obtain ⟨hend, hrest⟩ := ih hdoc
    exact ⟨hend, starts_append.2 ⟨hstarts, hrest⟩⟩

end Standing

end Playhead
