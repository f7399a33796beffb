import Playhead.Proofs.Engine.Still
import Playhead.Proofs.Standing.Offers

/-!
A wait for a choice ends by a selection only: time, input, skip, auto-play, an interruption and what
follows it leave the cursor where it is, and transient scripts of built-in commands add options at
most.
-/

namespace Playhead

open Playback (Lasts)

/-- A script whose commands are built-in ones. -/
def Document.IsBuiltin (registry : Registry) (d : Document) : Prop :=
  ∀ c ∈ d.commands, ∀ h, registry.get? c.name = some h → h ∈ Builtin.handlers

theorem Document.IsBuiltin.keeps {registry : Registry} {d : Document} (h : d.IsBuiltin registry)
    (l : List ChoiceOption) : d.Keeps (l <+: ·.pendingChoices) registry := by
  rintro t ⟨c, k, hc, hk, ht⟩
  exact Task.keepsAside_pending (Builtin.starts_of_begin (h c hc k hk) ht).not_isHost l

namespace Playback

/-- Playback that waits at the same place for a selection. The options that it was to select from
come before all others, and no command was started since. -/
structure Chooses (p₀ p : Playback) : Prop where
  settled : p.Settled
  waiting : p.cursor.waiting = true
  script : p.cursor.script = p₀.cursor.script
  index : p.cursor.index = p₀.cursor.index
  played : p.cursor.played = p₀.cursor.played
  pending : p₀.services.pendingChoices <+: p.services.pendingChoices
  quiet : ∃ told, p.scene.events = p₀.scene.events ++ told ∧
    ∀ spot name, .commandExecuted spot name ∉ told

variable {p₀ p q : Playback}

namespace Chooses

theorem here (hs : p.Settled) (hw : p.cursor.waiting = true) : Chooses p p :=
  ⟨hs, hw, rfl, rfl, rfl, List.prefix_rfl, [], (List.append_nil _).symm,
    fun _ _ => List.not_mem_nil⟩

/-- Neither the flags of the cursor nor the state of a halt matter. -/
theorem congr (h : Chooses p₀ p) (hscene : q.scene = p.scene)
    (hactive : q.player.active = p.player.active)
    (hcursor : q.cursor = { p.cursor with
      skipping := q.cursor.skipping, autoPlaying := q.cursor.autoPlaying }) : Chooses p₀ q := by
  refine ⟨h.settled.congr (fun _ => h.waiting) hactive, ?_, ?_, ?_, ?_, ?_, hscene ▸ h.quiet⟩
  · rw [hcursor]
    exact h.waiting
  · rw [hcursor]
    exact h.script
  · rw [hcursor]
    exact h.index
  · rw [hcursor]
    exact h.played
  · unfold Playback.services
    rw [hscene]
    exact h.pending

theorem emit (h : Chooses p₀ p) {event : Event}
    (he : ∀ spot name, event ≠ .commandExecuted spot name) : Chooses p₀ (p.emit event) := by
  obtain ⟨told, htold, hnone⟩ := h.quiet
  refine ⟨h.settled, h.waiting, h.script, h.index, h.played, h.pending, told ++ [event], ?_,
    fun spot name hmem => ?_⟩
  · rw [show (p.emit event).scene.events = p.scene.events ++ [event] from
      p.scene.events_emit event, htold, List.append_assoc]
  · rcases List.mem_append.1 hmem with hmem | hmem
    · exact hnone spot name hmem
    · exact he spot name (List.mem_singleton.1 hmem).symm

theorem choicesPending (h : Chooses p₀ p) (h₀ : p₀.choicesPending = true) :
    p.choicesPending = true := by
  cases hp : p.choicesPending with
  | true => rfl
  | false =>
    have hnone : p.services.pendingChoices = [] := Standing.choicesPending_eq_false_iff.1 hp
    have hfirst : p₀.services.pendingChoices = [] := List.prefix_nil.1 (hnone ▸ h.pending)
    have h₀' : p₀.choicesPending = false := Standing.choicesPending_eq_false_iff.2 hfirst
    cases h₀.symm.trans h₀'

theorem continueInput (h : Chooses p₀ p) (h₀ : p₀.choicesPending = true) :
    Chooses p₀ p.continueInput := by
  unfold Playback.continueInput
  rw [h.choicesPending h₀, Bool.or_true, if_pos rfl]
  exact h

theorem setSkip (h : Chooses p₀ p) (on : Bool) : Chooses p₀ (p.setSkip on) := by
  unfold Playback.setSkip
  split
  · exact h
  · exact (h.congr (q := p.withCursor { p.cursor with skipping := on }) rfl rfl rfl).emit nofun

theorem setAutoPlay (h : Chooses p₀ p) (on : Bool) : Chooses p₀ (p.setAutoPlay on) := by
  unfold Playback.setAutoPlay
  split
  · exact h
  · obtain ⟨q, hq⟩ : ∃ q : Playback, q = { p with player := { p.player with
        cursor := { p.cursor with autoPlaying := on }, waitElapsed := 0 } } := ⟨_, rfl⟩
    have hkept : Chooses p₀ q := h.congr (by rw [hq]) (by rw [hq]) (by rw [hq]; rfl)
    rw [hq] at hkept
    exact hkept.emit nofun

theorem resume (h : Chooses p₀ p) : Chooses p₀ { p with player := p.player.resume.1 } := by
  unfold Player.resume
  split
  · exact h
  · exact h.congr rfl rfl rfl

theorem interrupt (h : Chooses p₀ p) : Chooses p₀ p.interrupt := by
  unfold Playback.interrupt
  rw [cancelActive_of_idle (h.settled h.waiting)]
  exact (h.congr (q := { p.renewScope with player := { p.renewScope.player with halted := true } })
    rfl rfl rfl).emit nofun

end Chooses

theorem lasts_chooses (h₀ : p₀.choicesPending = true) :
    Lasts (p₀.services.pendingChoices <+: ·.pendingChoices) (Chooses p₀) where
  still h := .inr ⟨h.waiting, .inl (h.choicesPending h₀)⟩
  settled h := h.settled
  interrupted h _ := h.interrupt
  services h := h.pending
  write h hs := ⟨h.settled, h.waiting, h.script, h.index, h.played, hs, h.quiet⟩
  told h he := h.emit he

end Playback

/-- What may happen beside a choice: all input but a selection, transient scripts that are put in
line, and scopes that are opened or cancelled. -/
def Operation.IsAmbient : Operation → Prop
  | .input (.select _) => False
  | .input _ | .playTransient _ _ _ | .setScopes _ => True
  | _ => False

namespace Engine

variable {e : Engine} {ops : List Operation}

/-- While a choice is open, nothing but a selection moves playback on. -/
theorem Reachable.choice_stands (h : e.Reachable) (hpending : e.playback.choicesPending = true)
    (hwaiting : e.cursor.waiting = true)
    (hruns : ∀ r ∈ e.transients.runs, r.document.IsBuiltin e.registry)
    (hops : ∀ op ∈ ops, op.IsAmbient ∧ op.Queues (·.IsBuiltin e.registry) e) :
    (e.performAll ops).cursor.script = e.cursor.script ∧
      (e.performAll ops).cursor.index = e.cursor.index ∧
      (e.performAll ops).cursor.played = e.cursor.played ∧
      (e.performAll ops).cursor.waiting = e.cursor.waiting ∧
      (∃ told, (e.performAll ops).playback.scene.events = e.playback.scene.events ++ told ∧
        ∀ spot name, .commandExecuted spot name ∉ told) ∧
      e.services.pendingChoices <+: (e.performAll ops).services.pendingChoices := by
  have hJ := Playback.lasts_chooses hpending
  have hstart : Idles (e.services.pendingChoices <+: ·.pendingChoices)
      (Playback.Chooses e.playback) e e :=
    h.idles (.here h.kempt.settled hwaiting) fun r hr => (hruns r hr).keeps _
  have hend : Idles (e.services.pendingChoices <+: ·.pendingChoices)
      (Playback.Chooses e.playback) e (e.performAll ops) := by
    refine List.foldlRecOn ops Engine.perform hstart fun u hu op hop => ?_
    obtain ⟨hambient, hqueues⟩ := hops op hop
    cases op with
    | input i =>
      cases i with
      | tick delta => exact hu.tick hJ delta
      | goOn =>
        exact hu.onPlayback (congrArg Bearings.library u.playback.bearings_continueInput)
          (hu.playback.continueInput hpending)
      | cancel =>
        have hskip := hu.onPlayback (congrArg Bearings.library (u.playback.bearings_setSkip false))
          (hu.playback.setSkip false)
        exact hskip.onPlayback
          (congrArg Bearings.library ((u.playback.setSkip false).bearings_setAutoPlay false))
          (hskip.playback.setAutoPlay false)
      | skip on =>
        exact hu.onPlayback (congrArg Bearings.library (u.playback.bearings_setSkip on))
          (hu.playback.setSkip on)
      | auto on =>
        exact hu.onPlayback (congrArg Bearings.library (u.playback.bearings_setAutoPlay on))
          (hu.playback.setAutoPlay on)
      | resume => exact hu.onPlayback rfl hu.playback.resume
      | select index => exact hambient.elim
    | playTransient name text scope => exact hu.playTransient (hqueues.mono fun d hd => hd.keeps _)
    | setScopes c => exact hu.onPlayback rfl (hu.playback.congr rfl rfl rfl)
    | _ => exact hambient.elim
  obtain ⟨-, hwaits, hscript, hindex, hplayed, hprefix, hquiet⟩ := hend.playback
  exact ⟨hscript, hindex, hplayed, hwaits.trans hwaiting.symm, hquiet, hprefix⟩

/-- A script that asks for one of two options. -/
def askTwo : List Operation :=
  [.loadScript "s" "@choice One\n@choice Two\n@print later\n", .playFrom "s" 0,
    .input (.tick 0)]

/-- A third option is added aside, and all is tried that could end a wait. -/
def pressOn (e : Engine) : List Operation :=
  [.playTransient "t" "@choice Three\n@wait i\n" ⟨9, []⟩, .input (.tick 0), .input .goOn,
    .input (.skip true), .input (.auto true), .input (.tick 10000000000),
    .setScopes (e.playback.scopes.cancel e.player.scope), .input (.tick 0), .input .resume,
    .input .goOn, .input (.tick 10000000000), .input .cancel, .input (.tick 0)]

theorem choice_stands_pressOn : ∃ e : Engine, e.Reachable ∧ e.playback.choicesPending = true ∧
    e.cursor.waiting = true ∧
    (∀ r ∈ e.transients.runs, r.document.IsBuiltin e.registry) ∧
    (∀ op ∈ e.pressOn, op.IsAmbient ∧ op.Queues (·.IsBuiltin e.registry) e) ∧
    (e.performAll e.pressOn).services.pendingChoices.length = 3 ∧
    (e.performAll e.pressOn).cursor.script = e.cursor.script ∧
      (e.performAll e.pressOn).cursor.index = e.cursor.index ∧
      (e.performAll e.pressOn).cursor.played = e.cursor.played ∧
      (e.performAll e.pressOn).cursor.waiting = e.cursor.waiting ∧
      (∃ told, (e.performAll e.pressOn).playback.scene.events = e.playback.scene.events ++ told ∧
        ∀ spot name, .commandExecuted spot name ∉ told) ∧
      e.services.pendingChoices <+: (e.performAll e.pressOn).services.pendingChoices := by
  have hrun : ((build {} {}).toOption.any fun e₀ => (fun e : Engine =>
      e.playback.choicesPending = true ∧ e.cursor.waiting = true ∧ e.transients.runs.isEmpty ∧
        (e.performAll e.pressOn).services.pendingChoices.length = 3)
      (e₀.performAll askTwo)) = true := by
    decide +kernel
  obtain ⟨e₀, he₀, hcheck⟩ := (Option.any_eq_true _ _).1 hrun
  obtain ⟨hpending, hwaiting, hidle, hthree⟩ := of_decide_eq_true hcheck
  have hbuild := eq_ok_of_toOption he₀
  obtain ⟨e, he⟩ : ∃ e, e = e₀.performAll askTwo := ⟨_, rfl⟩
  have hregistry : e.registry = .builtin := by
    rw [he, (performAll_free (fresh_build hbuild).read askTwo).registry]
    obtain ⟨registry, services, -, hregistry, -, rfl⟩ := build_eq_ok hbuild
    exact (Except.ok.inj hregistry).symm
  rw [← he] at hpending hwaiting hidle hthree
  have hbuiltin : ∀ d : Document, d.IsBuiltin e.registry := by
    intro d c hc h hget
    rw [hregistry] at hget
    exact Registry.mem_of_get? hget
  have hops : ∀ op ∈ e.pressOn, op.IsAmbient ∧ op.Queues (·.IsBuiltin e.registry) e := by
    intro op hop
    simp only [pressOn, List.mem_cons, List.not_mem_nil, or_false] at hop
    rcases hop with rfl | rfl | rfl | rfl | rfl | rfl | rfl | rfl | rfl | rfl | rfl | rfl | rfl
    · exact ⟨trivial, fun d _ => hbuiltin d⟩
    all_goals exact ⟨trivial, trivial⟩
  have hreach : e.Reachable := he ▸ (Reachable.build hbuild).performAll _
  exact ⟨e, hreach, hpending, hwaiting, fun r _ => hbuiltin r.document, hops, hthree,
    hreach.choice_stands hpending hwaiting (fun r _ => hbuiltin r.document) hops⟩

end Engine

end Playhead
