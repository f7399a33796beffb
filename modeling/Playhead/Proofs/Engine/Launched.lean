import Playhead.Proofs.Motion.Moves
import Playhead.Proofs.Wings.Recalled

/-!
Scripts that are started on a new engine: nothing has been printed when they begin.
-/

namespace Playhead.Engine

/-- What starts a script. -/
inductive Launches (e u : Engine) : Prop where
  | playFrom {script : String} {index : Nat} (h : e.playFrom script index = (u, .ok ()))
  | playStart (h : e.playStartScript = (u, .ok ()))
  | playLabel {script label : String} (h : e.playFromLabel script label = (u, .ok ()))
  | preload {script : String} (h : e.preloadAndPlay script = (u, .ok ()))

/-- An engine that holds scripts of the host. -/
def holding (e : Engine) (texts : List (String × String)) : Engine :=
  e.performAll (texts.map fun t => .loadScript t.1 t.2)

/-- A script was just started on an engine that was built and given some texts as scripts. -/
def Launched (config : Config) (parts : EngineParts) (u : Engine) : Prop :=
  ∃ e texts, build config parts = .ok e ∧ (e.holding texts).Launches u

variable {e u : Engine}

theorem Launches.perform (h : e.Launches u) : ∃ op, u = e.perform op := by
  cases h with
  | @playFrom script index h => exact ⟨.playFrom script index, (congrArg Prod.fst h).symm⟩
  | playStart h => exact ⟨.playStart, (congrArg Prod.fst h).symm⟩
  | @playLabel script label h => exact ⟨.playLabel script label, (congrArg Prod.fst h).symm⟩
  | @preload script h => exact ⟨.preload script, (congrArg Prod.fst h).symm⟩

theorem Launches.startsScript (h : e.Launches u) : e.StartsScript (u, .ok ()) := by
  cases h with
  | @playFrom script index h => exact h ▸ e.startsScript_playFrom script index
  | playStart h => exact h ▸ e.startsScript_playStartScript
  | @playLabel script label h => exact h ▸ e.startsScript_playFromLabel script label
  | @preload script h => exact h ▸ e.startsScript_preloadAndPlay script

/-- Beginning a script where nothing is in flight leaves the services. -/
theorem beginPlayback_of_idle (ha : e.player.active = none) (hr : e.transients.runs = [])
    (d : Document) (index : Nat) : (e.beginPlayback d index).services = e.services ∧
      (e.beginPlayback d index).player.document = some d := by
  have hcancel : e.onPlayback Playback.cancelActive = e := by
    unfold onPlayback
    rw [Playback.cancelActive_of_idle ha]
  obtain ⟨v, hv⟩ : ∃ v, v = e.withScopes (e.playback.scopes.cancel e.player.scope) := ⟨_, rfl⟩
  have hreap : v.reapCancelled = v := reapCancelled_alone (by rw [hv]; exact hr)
  have hscope : e.cancelPlaybackScope = v.onPlayback Playback.renewScope := by
    unfold cancelPlaybackScope
    dsimp only
    rw [hcancel, ← hv, hreap]
  obtain ⟨p, hp⟩ : ∃ p, p = (v.onPlayback Playback.renewScope).clearRollback.playback := ⟨_, rfl⟩
  have hidle : p.player.active = none := by
    rw [hp, hv]
    exact ha
  obtain ⟨hplayer, hservices, -⟩ := start_eq hidle d index
  have hbegin : (e.beginPlayback d index).playback = p.start d index := by
    unfold beginPlayback
    rw [hscope, hp]
    rfl
  refine ⟨?_, ?_⟩
  · show (e.beginPlayback d index).playback.services = e.services
    rw [hbegin, hservices, hp, hv]
    rfl
  · show (e.beginPlayback d index).playback.player.document = some d
    rw [hbegin, hplayer]

/-- An engine that has not played yet, with nothing in its text log. -/
structure Unplayed (e : Engine) : Prop where
  active : e.player.active = none
  alone : e.transients.runs = []
  document : e.player.document = none
  textLog : e.services.textLog = some .empty

theorem unplayed_build {config : Config} {parts : EngineParts}
    (h : build config parts = .ok e) : e.Unplayed := by
  obtain ⟨registry, services, -, -, hservices, rfl⟩ := build_eq_ok h
  obtain ⟨host, rfl⟩ := exists_host_of_registerServices hservices
  exact ⟨rfl, rfl, rfl, rfl⟩

theorem Unplayed.loadScript (he : e.Unplayed) (name text : String) :
    (e.loadScript name text).1.Unplayed := by
  unfold Engine.loadScript replaceScript
  split
  · exact he
  · rename_i d k _
    have hidle : e.player.document.isSome = false := by
      rw [he.document]
      rfl
    have hreplaced : ({ e with playback := { e.playback with library := k } } :
        Engine).scriptReplaced d = { e with playback := { e.playback with library := k } } := by
      refine if_neg fun h => ?_
      have hplays : e.player.document.isSome = true := by
        simp only [Bool.and_eq_true] at h
        exact h.1.1.1
      cases hidle.symm.trans hplays
    rw [hreplaced]
    exact ⟨he.active, he.alone, he.document, he.textLog⟩

theorem Unplayed.holding (he : e.Unplayed) (texts : List (String × String)) :
    (e.holding texts).Unplayed := by
  induction texts generalizing e with
  | nil => exact he
  | cons t rest ih => exact ih (he.loadScript t.1 t.2)

/-- A script that was just started has printed nothing yet. -/
theorem Launches.unprinted (he : e.Unplayed) (h : e.Launches u) :
    u.services.textLog = some .empty ∧ u.player.document.isSome = true := by
  obtain ⟨v, d, index, hv, rfl⟩ := h.startsScript.exists_begins
  obtain ⟨hservices, hdocument⟩ := beginPlayback_of_idle (hv.playback.active.trans he.active)
    ((congrArg TransientRunner.runs hv.transients).trans he.alone) d index
  have hsame : (v.beginPlayback d index).services = e.services :=
    hservices.trans hv.playback.services
  rw [hsame, hdocument]
  exact ⟨he.textLog, rfl⟩

namespace Launched

variable {config : Config} {parts : EngineParts}

theorem reachable (h : Launched config parts u) : u.Reachable := by
  obtain ⟨e, texts, hbuild, hu⟩ := h
  obtain ⟨op, rfl⟩ := hu.perform
  exact ((Reachable.build hbuild).performAll _).perform op

theorem starts {P : Task → Prop} (h : Launched config parts u) (hP : ∀ t, ¬t.IsHost → P t)
    (hc : ∀ k ∈ parts.commands, ∀ c t, k.begin c = .ok t → P t) : u.registry.Starts P := by
  obtain ⟨e, texts, hbuild, hu⟩ := h
  have hread := (fresh_build hbuild).read
  have hheld := performAll_free hread (texts.map fun t => .loadScript t.1 t.2)
  obtain ⟨op, rfl⟩ := hu.perform
  have hturns : Turns (.free True) (e.holding texts) ((e.holding texts).perform op) :=
    perform_turns (hread.turns hheld) (within_free fun _ => trivial)
  rw [hturns.registry, show (e.holding texts).registry = e.registry from hheld.registry]
  exact starts_build hbuild hP hc

theorem unprinted (h : Launched config parts u) :
    u.services.textLog = some .empty ∧ u.player.document.isSome = true := by
  obtain ⟨e, texts, hbuild, hu⟩ := h
  exact hu.unprinted ((unplayed_build hbuild).holding texts)

end Launched

end Playhead.Engine
