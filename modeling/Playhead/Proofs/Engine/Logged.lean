import Playhead.Proofs.Engine.Selection
import Playhead.Proofs.Engine.Still
import Playhead.Proofs.Motion.Deeds
import Playhead.Proofs.Services.Task

/-!
What time and selections do to the text log.

Commands come from the registry, whoever started them. If the registry's commands only add to the
text log, a tick adds to it at most, and a selection leaves it.
-/

namespace Playhead

open Playback (Sited Step Path)

/-- Every command in flight is of the kind that the commands of the registry start. -/
theorem Engine.Reachable.holds {e : Engine} {P : Task → Prop} (h : e.Reachable)
    (hreg : e.registry.Starts P) (hP : ∀ t u, t.Stems u → P t → P u) :
    (∀ a, e.player.active = some a → P a.task) ∧ ∀ r ∈ e.transients.runs, r.Holds P := by
  refine ⟨?_, fun r hr => ?_⟩
  · have hkeeps := h.keeps (I := fun registry b => registry.Starts P →
      ∀ a, b.active = some a → P a.task)
      (fun e he _ a ha => by cases he.active.symm.trans ha)
      fun registry b c hturn hb hreg =>
        Bearings.Turns.starts (.one hturn) hreg hP (hb hreg)
    exact hkeeps.2 hreg
  · refine (h.kempt.sourced r hr).holds hP fun t ht => ?_
    obtain ⟨c, k, -, hk, hbegin⟩ := ht
    exact hreg c.name k c t hk hbegin

namespace Playback

variable {env : Env} {p q : Playback} {l : List LogEntry}

/-- Playback whose command in flight only adds to a text log, which starts with some entries. -/
structure Logs (l : List LogEntry) (p : Playback) : Prop where
  active : ∀ a, p.player.active = some a → a.task.Appends
  services : p.services.Logs l

theorem Logs.step (hreg : env.source.registry.Starts Task.Appends) (hs : Sited env p)
    (h : Step env p q) (hp : p.Logs l) : q.Logs l := by
  have hturns : Turns env .none p q := h.turns hs.registry hs.read
  refine ⟨hturns.starts hreg (fun _ _ hstems ht => ht.stems hstems) hp.active, ?_⟩
  cases h.deed with
  | rests h => exact hp.services.congr (congrArg ServiceSet.textLog h.services)
  | drops ha h =>
    rw [h.services]
    exact (hp.active _ ha _ .refl l _ hp.services).1
  | @starts d i c hd hi hc h =>
    obtain ⟨hstanding, -⟩ := reported_eq env p.entering ⟨d.name, i⟩ c.name
    have hstory := congrArg (fun t : Standing => t.services.textLog) hstanding
    exact hp.services.congr ((congrArg ServiceSet.textLog h.services).trans hstory)
  | works delta hd ha hc h =>
    rw [h.services]
    exact (hp.active _ ha _ .refl l _ hp.services).2 _

theorem Logs.tick (hreg : env.source.registry.Starts Task.Appends) (hs : Sited env p)
    (hp : p.Logs l) (delta : Nanoseconds) : (p.tick env delta).1.Logs l :=
  ((tick_path delta hs.toSteps).keeps (I := fun p => Sited env p ∧ p.Logs l)
    (fun _ _ h hp => ⟨hp.1.step h, hp.2.step hreg hp.1 h⟩) ⟨hs, hp⟩).2

end Playback

/-- Turns of a transient script of such commands keep the entries of the text log. -/
theorem TransientRun.kept_logs {registry : Registry} (hreg : registry.Starts Task.Appends)
    (l : List LogEntry) :
    Kept registry fun r s => r.Holds Task.Appends ∧ s.services.Logs l :=
  kept_services hreg (fun _ _ hstems ht => ht.stems hstems) (fun t s ht hs => (ht t .refl l s hs).1)
    fun t s ctx ht _ hs => (ht t .refl l s hs).2 ctx

namespace Engine

variable {e e' : Engine} {l : List LogEntry}

/-- An engine all of whose commands only add to a text log, which starts with some entries. -/
structure Logs (l : List LogEntry) (e : Engine) : Prop where
  registry : e.registry.Starts Task.Appends
  playback : e.playback.Logs l
  runs : ∀ r ∈ e.transients.runs, r.Holds Task.Appends

theorem Reachable.logs (h : e.Reachable) (hreg : e.registry.Starts Task.Appends)
    (hl : e.services.Logs l) : e.Logs l := by
  obtain ⟨hactive, hruns⟩ := h.holds hreg fun _ _ hstems ht => ht.stems hstems
  exact ⟨hreg, ⟨hactive, hl⟩, hruns⟩

/-- Transient scripts that take their turns add to the text log at most. -/
theorem Logs.visit (he : e.Logs l)
    {turn : TransientRun → Scene → TransientRun × Scene × Option TransientStatus}
    (hturn : ∀ r s, r.Holds Task.Appends → s.services.Logs l →
      (turn r s).1.Holds Task.Appends ∧ (turn r s).2.1.services.Logs l) :
    ({ e with
        transients := (e.transients.visitAll turn e.playback.scene).1
        playback := { e.playback with
          scene := (e.transients.visitAll turn e.playback.scene).2 } } : Engine).Logs l := by
  obtain ⟨hruns, hservices⟩ := TransientRunner.visitAll_keeps (P := fun s => s.services.Logs l)
    hturn (fun _ _ _ h => h) he.runs he.playback.services
  exact ⟨he.registry, ⟨he.playback.active, hservices⟩, hruns⟩

theorem Logs.tick (hs : Sited e.env e.playback) (he : e.Logs l) (delta : Nanoseconds) :
    (e.tick delta).1.Logs l := by
  have hplayed : ({ e with playback := (e.playback.tick e.env delta).1 } : Engine).Logs l :=
    ⟨he.registry, he.playback.tick he.registry hs delta, he.runs⟩
  obtain ⟨u, hu⟩ : ∃ u, u =
      ({ e with playback := (e.playback.tick e.env delta).1 } : Engine).reapCancelled := ⟨_, rfl⟩
  have hreaped : u.Logs l := by
    rw [hu]
    refine hplayed.visit fun r s hr hs => ?_
    split
    · exact (TransientRun.kept_logs he.registry l).dropped r s ⟨hr, hs⟩
    · exact ⟨hr, hs⟩
  have hturned : (u.turnTransients delta).Logs l :=
    hreaped.visit fun r s hr hs => (TransientRun.kept_logs hreaped.registry l).advance ⟨hr, hs⟩ _
      delta _
  rw [hu] at hturned
  exact hturned

theorem textLog_applyChoiceSet (e : Engine) (o : ChoiceOption) :
    (e.applyChoiceSet o).services.textLog = e.services.textLog := by
  unfold applyChoiceSet
  split
  · rfl
  · dsimp only
    split
    · rename_i s happlied
      obtain ⟨assignments, -, happlied⟩ := exists_of_bind_ok happlied
      cases hv : e.services.variableStore with
      | none =>
        rw [hv] at happlied
        cases happlied
        rfl
      | some v =>
        rw [hv] at happlied
        obtain ⟨v', -, happlied⟩ := exists_of_bind_ok happlied
        cases happlied
        rfl
    · rfl

theorem services_startChoiceScript (e : Engine) (o : ChoiceOption) :
    (e.startChoiceScript o).1.services = e.services := by
  unfold startChoiceScript
  split
  · rfl
  · dsimp only
    unfold Engine.playTransient
    split
    · rename_i u handle hplay
      split at hplay <;> cases hplay
      rfl
    · rename_i u err hplay
      split at hplay <;> cases hplay
      rfl

/-- An option that is selected writes nothing to the text log. -/
theorem textLog_selectChoice {index : Nat} (h : e.selectChoice index = (e', .ok ())) :
    e'.services.textLog = e.services.textLog := by
  unfold selectChoice at h
  split at h
  · cases h
  · split at h
    · cases h
    · rename_i o _
      cases hgoto : e.choiceDestination index o.goto with
      | mk u found =>
        rw [hgoto] at h
        cases found with
        | error err => cases h
        | ok destination =>
          obtain ⟨hservices, -⟩ := choiceDestination_ok hgoto
          dsimp only at h
          obtain ⟨v, hv⟩ : ∃ v, v = u.withServices { u.services with
            choices := u.services.choices.map fun _ => .empty } := ⟨_, rfl⟩
          rw [← hv] at h
          have hscript : ((v.applyChoiceSet o).startChoiceScript o).1.services.textLog =
              e.services.textLog := by
            rw [services_startChoiceScript, textLog_applyChoiceSet, hv, ← hservices]
            rfl
          generalize (v.applyChoiceSet o).startChoiceScript o = r at h hscript
          obtain ⟨w, err | _⟩ := r
          · cases h
          · cases destination with
            | none =>
              cases h
              exact (congrArg ServiceSet.textLog w.playback.services_continueInput).trans hscript
            | some place =>
              cases h
              exact (congrArg ServiceSet.textLog
                (w.playback.services_moveTo place.1 place.2 .endOfScript)).trans hscript

end Engine

end Playhead
