import Playhead.Proofs.Bearings.Placed
import Playhead.Proofs.Engine.Operation
import Playhead.Proofs.Services.Task

/-!
The command in flight is the one at the cursor, whatever the host does, as long as no selection
leads elsewhere while it is in flight.
-/

namespace Playhead

namespace Bearings

/-- Whether a command was started at the cursor, from the script that plays. -/
def Aboard (registry : Registry) (b : Bearings) (a : ActiveCommand) : Prop :=
  ∃ d c h t, b.document = some d ∧ b.script = d.name ∧ b.revision = d.revision ∧
    b.index = some a.index ∧ d.command? a.index = some c ∧ registry.get? c.name = some h ∧
    h.begin c = .ok t ∧ t.Stems a.task

/-- The cursor is in the script that plays, and so is what is in flight. -/
structure OnCourse (registry : Registry) (b : Bearings) : Prop where
  placed : b.Placed
  active : ∀ a, b.active = some a → b.Aboard registry a

variable {registry : Registry} {w : Leeway} {b c : Bearings}

theorem onCourse_of_idle (hc : c.Placed) (ha : c.active = none) : c.OnCourse registry :=
  ⟨hc, fun a h => by rw [ha] at h; cases h⟩

/-- Every turn but one that leaves a command in flight behind keeps the course. -/
theorem OnCourse.turn (hw : ¬w.veers) (hb : b.OnCourse registry) (h : Turn registry w b c) :
    c.OnCourse registry := by
  have hplaced := hb.placed.turn h
  cases h with
  | @start d i cmd h task hd hi ha hc hr ht =>
    refine ⟨hplaced, fun a h => ?_⟩
    cases h
    obtain ⟨hscript, hrevision⟩ := hb.placed.script d hd
    exact ⟨d, cmd, h, task, hd, hscript, hrevision, hi, hc, hr, ht, .refl⟩
  | @work a task ctx s s' why ha ht =>
    refine ⟨hplaced, fun a' h => ?_⟩
    cases h
    obtain ⟨d, cmd, h, t, hd, hscript, hrevision, hi, hc, hr, hbegin, hstems⟩ := hb.active a ha
    exact ⟨d, cmd, h, t, hd, hscript, hrevision, hi, hc, hr, hbegin,
      hstems.tail ⟨ctx, s, why, s', ht⟩⟩
  | drop => exact onCourse_of_idle hplaced rfl
  | fault ha | pass hd hi hb ha | leave ha | restart hd i ha | goBack hd ha | load hd i ha =>
    exact onCourse_of_idle hplaced ha
  | move hd i hb ha => exact onCourse_of_idle hplaced (ha.resolve_right hw)
  | _ => exact ⟨hplaced, hb.active⟩

end Bearings

namespace Engine

variable {e : Engine}

/-- Whether no selection leads elsewhere while a command is in flight. -/
def Steers (e : Engine) (l : List Operation) : Prop :=
  ∀ before index after, l = before ++ .input (.select index) :: after →
    (e.performAll before).player.active = none ∨
      ∀ o, (e.performAll before).services.pendingChoices[index]? = some o → o.goto = none

/-- In every state that comes about, the command in flight is the one at the cursor: it was started
from the script that plays, whose name and revision the cursor bears. -/
theorem inFlight_at_cursor {config : Config} {parts : EngineParts}
    (hbuild : build config parts = .ok e) {l : List Operation} (hl : e.Steers l)
    {a : ActiveCommand} (ha : (e.performAll l).player.active = some a) :
    ∃ d c h t, (e.performAll l).player.document = some d ∧
      (e.performAll l).cursor.script = d.name ∧ (e.performAll l).cursor.revision = d.revision ∧
      (e.performAll l).cursor.index = some a.index ∧ d.command? a.index = some c ∧
      (e.performAll l).registry.get? c.name = some h ∧ h.begin c = .ok t ∧ t.Stems a.task := by
  have hfresh := fresh_build hbuild
  have hwithin : e.WithinAll ⟨False, True, fun _ _ => True⟩ l := by
    intro before op after heq
    cases op with
    | input i =>
      cases i with
      | select index =>
        intro o ho hgoto
        rcases hl before index after heq with hnone | hstays
        · exact .inl hnone
        · exact absurd (hstays o ho) hgoto
      | _ => exact trivial
    | load slot | quickLoad => exact fun _ _ _ => ⟨trivial, trivial⟩
    | _ => exact trivial
  have hturns := performAll_turns hfresh.read hwithin
  have hcourse : (e.performAll l).bearings.OnCourse e.registry := by
    refine hturns.turns.keeps (fun _ _ hturn hb => hb.turn id hturn) ?_
    exact Bearings.onCourse_of_idle
      (Bearings.placed_of_document hfresh.document hfresh.index) hfresh.active
  rw [hturns.registry]
  exact hcourse.active a ha

/-- A time wait before a label. -/
def waitThenLabel : String := "@wait 10\n@print a\n#L\n@print b\n"

/-- A run after which the wait is in flight. -/
def untilWait : List Operation :=
  [.loadScript "tale" waitThenLabel, .playFrom "tale" 0, .input (.tick 0)]

/-- The wait that is in flight was started at the cursor. -/
theorem inFlight_at_cursor_wait : ∃ e a d c, build {} {} = .ok e ∧
    (e.performAll untilWait).player.active = some a ∧ a.index = 0 ∧
    (e.performAll untilWait).player.document = some d ∧
    (e.performAll untilWait).cursor.index = some a.index ∧ d.command? a.index = some c := by
  have hrun : ((build {} {}).toOption.any fun e =>
      (e.performAll untilWait).player.active.any fun a => a.index = 0) = true := by
    decide +kernel
  obtain ⟨e, he, hcheck⟩ := (Option.any_eq_true _ _).1 hrun
  obtain ⟨a, ha, hindex⟩ := (Option.any_eq_true _ _).1 hcheck
  have hbuild := eq_ok_of_toOption he
  have hsteers : e.Steers untilWait := by
    intro before index after h
    have hmem : Operation.input (.select index) ∈ untilWait := h ▸ by simp
    simp [untilWait] at hmem
  obtain ⟨d, c, -, -, hd, -, -, hi, hc, -⟩ := inFlight_at_cursor hbuild hsteers ha
  exact ⟨e, a, d, c, hbuild, ha, of_decide_eq_true hindex, hd, hi, hc⟩

/-- A run in which an option is selected under the wait. -/
def selectUnderWait : List Operation :=
  untilWait ++ [.playTransient "aside" "@choice x goto:tale.L\n" ⟨7, []⟩, .input (.tick 0),
    .input (.select 0)]

/-- After the selection the cursor is at the label and the wait before it still in flight. -/
theorem inFlight_past_cursor : ∃ e a, build {} {} = .ok e ∧
    (e.performAll selectUnderWait).player.active = some a ∧ a.index = 0 ∧
    (e.performAll selectUnderWait).cursor.index = some 2 := by
  have hrun : ((build {} {}).toOption.any fun e =>
      (e.performAll selectUnderWait).player.active.any fun a =>
        a.index = 0 ∧ (e.performAll selectUnderWait).cursor.index = some 2) = true := by
    decide +kernel
  obtain ⟨e, he, hcheck⟩ := (Option.any_eq_true _ _).1 hrun
  obtain ⟨a, ha, hindex⟩ := (Option.any_eq_true _ _).1 hcheck
  obtain ⟨hzero, htwo⟩ := of_decide_eq_true hindex
  exact ⟨e, a, eq_ok_of_toOption he, ha, hzero, htwo⟩

end Engine

end Playhead
