import Playhead.Proofs.Engine.Acts
import Playhead.Proofs.Services.Task

/-!
Where the command that a transient script has in flight comes from: the script itself, which started
it. What holds of all that the commands of a script start holds of the command in flight.

Main playback that no tick moves on has no command in flight while it waits for input. Time that
passes then only interrupts it at most, and lets transient scripts take their turns, which write to
the services and report.
-/

namespace Playhead

namespace TransientRun

/-- A run whose command in flight, if there is one, was started by its script. -/
def Sourced (registry : Registry) (r : TransientRun) : Prop :=
  r.Holds fun t => ∃ t₀, r.document.Issues registry t₀ ∧ t₀.Stems t

variable {registry : Registry} {r r' : TransientRun} {P : Task → Prop}

theorem Sourced.holds (h : r.Sourced registry) (hP : ∀ t u, t.Stems u → P t → P u)
    (hd : ∀ t, r.document.Issues registry t → P t) : r.Holds P := by
  intro i t ha
  obtain ⟨t₀, hissues, hstems⟩ := h i t ha
  exact hP t₀ t hstems (hd t₀ hissues)

theorem kept_sourced (registry : Registry) : Kept registry fun r _ => r.Sourced registry where
  moved r r' _ hsame hactive h := by
    intro i t ha
    obtain ⟨t₀, hissues, hstems⟩ := h i t (hactive ▸ ha)
    exact ⟨t₀, hsame.2.2 ▸ hissues, hstems⟩
  left _ _ _ := holds_idle rfl
  dropped _ _ _ := holds_idle rfl
  reported _ _ _ _ h := h
  stepped r s i t ctx h _ ht := by
    obtain ⟨t₀, hissues, hstems⟩ : ∃ t₀, r.document.Issues registry t₀ ∧ t₀.Stems t := by
      rcases ht with ha | hissues
      · exact h i t ha
      · exact ⟨t, hissues, .refl⟩
    cases hstep : t.step ctx s.services with
    | mk progress after =>
      cases progress with
      | suspended rest why =>
        intro j u hu
        cases hu
        exact ⟨t₀, hissues, hstems.tail ⟨_, _, _, _, hstep⟩⟩
      | _ => exact holds_idle rfl

end TransientRun

namespace Engine

/-- No command of main playback is in flight while it waits, and those of transient scripts were
started by them. -/
structure Kempt (e : Engine) : Prop where
  settled : e.playback.Settled
  sourced : ∀ r ∈ e.transients.runs, r.Sourced e.registry

variable {e e₀ u : Engine} {op : Operation} {l : List Playback.Move}

/-- Transient scripts that take their turns leave the player alone. -/
theorem Kempt.visit (he : e.Kempt)
    {turn : TransientRun → Scene → TransientRun × Scene × Option TransientStatus}
    (hturn : ∀ r s, r.Sourced e.registry → (turn r s).1.Sourced e.registry) :
    ({ e with
        transients := (e.transients.visitAll turn e.playback.scene).1
        playback := { e.playback with
          scene := (e.transients.visitAll turn e.playback.scene).2 } } : Engine).Kempt := by
  obtain ⟨hruns, -⟩ := TransientRunner.visitAll_keeps (P := fun _ => True) (s := e.playback.scene)
    (fun r s hr _ => ⟨hturn r s hr, trivial⟩) (fun _ _ _ _ => trivial) he.sourced trivial
  exact ⟨he.settled, hruns⟩

theorem Kempt.act (he : e.Kempt) (h : Act op e₀ e l u) : u.Kempt := by
  cases h with
  | play hs hpath hkept =>
    exact ⟨hkept _ (Playback.endures_settled e.env) he.settled, he.sourced⟩
  | guide hguide => exact ⟨hguide.settled he.settled, he.sourced⟩
  | drop =>
    exact ⟨Playback.settled_of_idle (congrArg Bearings.active e.playback.bearings_cancelActive),
      he.sourced⟩
  | rewrite h => exact ⟨he.settled, he.sourced⟩
  | turn delta =>
    exact he.visit fun r s hr =>
      (TransientRun.kept_sourced e.registry).advance hr _ delta _
  | reap =>
    refine he.visit fun r s hr => ?_
    split
    · exact TransientRun.holds_idle rfl
    · exact hr
  | queue d scope =>
    refine ⟨he.settled, fun r hr => ?_⟩
    rcases List.mem_append.1 hr with hr | hr
    · exact he.sourced r hr
    · rw [List.mem_singleton.1 hr]
      exact TransientRun.holds_idle rfl
  | aside hp hr ht =>
    exact ⟨hp ▸ he.settled, fun r h => hr ▸ he.sourced r (ht ▸ h)⟩

theorem Reachable.kempt (h : e.Reachable) : e.Kempt := by
  induction h with
  | build h =>
    obtain ⟨registry, services, -, -, -, rfl⟩ := build_eq_ok h
    exact ⟨Playback.settled_of_idle rfl, fun r hr => (nomatch hr)⟩
  | perform h op ih =>
    exact ((perform_acts h.sited op).keeps (J := fun _ e => e.Kempt) (K := fun _ _ => True)
      (fun _ _ _ _ hact he => ⟨he.act hact, fun _ _ _ _ => trivial⟩) (H := []) ih).1
  | supply h resources files ih => exact ⟨ih.settled, ih.sourced⟩

end Engine

namespace Playback

/-- Playback that a tick does not move on: it is over or halted, or it waits for a selection, or for
input with skip and auto-play off. -/
def Still (p : Playback) : Prop :=
  p.player.isRunning = false ∨ p.cursor.waiting = true ∧
    (p.choicesPending = true ∨ p.cursor.skipping = false ∧ p.cursor.autoPlaying = false)

variable {p : Playback}

theorem leaveWait_of_still (env : Env) (delta : Nanoseconds)
    (h : p.choicesPending = true ∨ p.cursor.skipping = false ∧ p.cursor.autoPlaying = false) :
    p.leaveWait env delta = (p, false) := by
  by_cases hpending : p.choicesPending = true
  · exact leaveWait_of_choices hpending env delta
  · obtain ⟨hskip, hauto⟩ := h.resolve_left hpending
    unfold leaveWait
    rw [if_neg hpending, if_neg (by rw [hskip]; decide), if_neg (by rw [hauto]; decide)]

/-- All that a tick can do then is to interrupt playback whose scope is cancelled. -/
theorem Still.tick (h : p.Still) (hp : p.Settled) (env : Env) (delta : Nanoseconds) :
    (p.tick env delta).1 = p ∨ p.player.active = none ∧ (p.tick env delta).1 = p.interrupt := by
  unfold Playback.tick
  cases hrun : p.player.isRunning with
  | false => exact .inl rfl
  | true =>
    obtain ⟨hwaiting, hstays⟩ := h.resolve_left (by rw [hrun]; decide)
    simp only [Bool.not_true, Bool.false_eq_true, if_false]
    by_cases hc : p.scopes.isCancelled p.player.scope = true
    · rw [if_pos hc]
      exact .inr ⟨hp hwaiting, rfl⟩
    · rw [if_neg hc, if_pos hwaiting, leaveWait_of_still env delta hstays]
      exact .inl rfl

/-- A property of playback that stands still which neither an interruption of it ends nor what keeps
a property of the services and reports no start. -/
structure Lasts (I : ServiceSet → Prop) (J : Playback → Prop) : Prop where
  still : ∀ {p}, J p → p.Still
  settled : ∀ {p}, J p → p.Settled
  interrupted : ∀ {p}, J p → p.player.active = none → J p.interrupt
  services : ∀ {p}, J p → I p.services
  write : ∀ {p s}, J p → I s → J (p.withServices s)
  told : ∀ {p} {event : Event}, J p → (∀ spot name, event ≠ .commandExecuted spot name) →
    J (p.emit event)

end Playback

open Playback (Lasts)

variable {I : ServiceSet → Prop} {J : Playback → Prop}

/-- A script whose commands keep a property of the services aside. -/
def Document.Keeps (I : ServiceSet → Prop) (registry : Registry) (d : Document) : Prop :=
  ∀ t, d.Issues registry t → t.KeepsAside I

theorem Document.keeps_true (d : Document) (registry : Registry) :
    d.Keeps (fun _ => True) registry :=
  fun _ _ _ _ _ _ => ⟨trivial, fun _ _ => trivial⟩

/-- Whether all scripts that an operation puts in line are of a kind. -/
def Operation.Queues (D : Document → Prop) (e : Engine) : Operation → Prop
  | .playTransient name text _ =>
    ∀ d, Document.parse e.registry e.library.waitByDefault name text = .ok d → D d
  | _ => True

namespace Operation

variable {D D' : Document → Prop}

theorem Queues.mono {op : Operation} {e : Engine} (h : op.Queues D e) (hD : ∀ d, D d → D' d) :
    op.Queues D' e := by
  cases op with
  | playTransient name text scope => exact fun d hd => hD d (h d hd)
  | _ => trivial

theorem queues_of_forall (hD : ∀ d, D d) (op : Operation) (e : Engine) : op.Queues D e := by
  cases op with
  | playTransient name text scope => exact fun d _ => hD d
  | _ => trivial

end Operation

namespace TransientRun

/-- A run of commands that keep a property of the services aside. -/
def Keeps (I : ServiceSet → Prop) (registry : Registry) (r : TransientRun) : Prop :=
  r.document.Keeps I registry ∧ r.Holds fun t => t.KeepsAside I

variable {registry : Registry}

theorem Sourced.keeps {r : TransientRun} (h : r.Sourced registry)
    (hd : r.document.Keeps I registry) : r.Keeps I registry :=
  ⟨hd, h.holds (fun _ _ hstems ht => ht.stems hstems) hd⟩

/-- Turns of a run of such commands are taken aside. -/
theorem kept_aside (hJ : Lasts I J) (registry : Registry) (p : Playback) :
    Kept registry fun r s => r.Keeps I registry ∧ J { p with scene := s } where
  moved r r' s hsame hactive h := by
    refine ⟨⟨?_, fun i t ha => h.1.2 i t (hactive ▸ ha)⟩, h.2⟩
    rw [hsame.2.2]
    exact h.1.1
  left r s h := ⟨⟨h.1.1, holds_idle rfl⟩, h.2⟩
  dropped r s h := by
    refine ⟨⟨h.1.1, holds_idle rfl⟩, ?_⟩
    have hs : I s.services := hJ.services h.2
    have hwrite : I (r.abandon s.services) := by
      unfold abandon
      split
      · rename_i i t ha
        exact (h.1.2 i t ha t .refl _ hs).1
      · exact hs
    exact hJ.write h.2 hwrite
  reported r s spot message h := ⟨h.1, hJ.told h.2 nofun⟩
  stepped r s i t ctx h hctx ht := by
    have hkeeps : t.KeepsAside I := ht.elim (h.1.2 i t) (h.1.1 t)
    have hwrite := hJ.write h.2 ((hkeeps t .refl _ (hJ.services h.2)).2 ctx hctx)
    cases hstep : t.step ctx s.services with
    | mk progress after =>
      have hwrite : J { p with scene := { s with services := after } } := by
        rw [show (t.step ctx ({ p with scene := s } : Playback).services).2 = after from
          congrArg Prod.snd hstep] at hwrite
        exact hwrite
      cases progress with
      | suspended rest why =>
        refine ⟨⟨h.1.1, fun j u hu => ?_⟩, hwrite⟩
        cases hu
        exact hkeeps.stems (.single ⟨_, _, _, _, hstep⟩)
      | _ => exact ⟨⟨h.1.1, holds_idle rfl⟩, hwrite⟩

end TransientRun

namespace Engine

/-- An engine whose main playback stands still beside transient scripts that keep a property of the
services, since it was in another state. -/
structure Idles (I : ServiceSet → Prop) (J : Playback → Prop) (e₀ e : Engine) : Prop where
  registry : e.registry = e₀.registry
  library : e.library = e₀.library
  playback : J e.playback
  runs : ∀ r ∈ e.transients.runs, r.Keeps I e₀.registry

variable {e e₀ : Engine}

theorem Idles.onPlayback (he : Idles I J e₀ e) {q : Playback} (hk : q.library = e.library)
    (hq : J q) : Idles I J e₀ { e with playback := q } :=
  ⟨he.registry, hk.trans he.library, hq, he.runs⟩

theorem Idles.visit (hJ : Lasts I J) (he : Idles I J e₀ e)
    {turn : TransientRun → Scene → TransientRun × Scene × Option TransientStatus}
    (hturn : ∀ r s, r.Keeps I e₀.registry ∧ J { e.playback with scene := s } →
      (turn r s).1.Keeps I e₀.registry ∧ J { e.playback with scene := (turn r s).2.1 }) :
    Idles I J e₀ { e with
      transients := (e.transients.visitAll turn e.playback.scene).1
      playback := { e.playback with
        scene := (e.transients.visitAll turn e.playback.scene).2 } } := by
  obtain ⟨hruns, hplayback⟩ := TransientRunner.visitAll_keeps
    (P := fun s => J { e.playback with scene := s }) (s := e.playback.scene)
    (fun r s hr hs => hturn r s ⟨hr, hs⟩) (fun _ _ _ h => hJ.told h nofun) he.runs he.playback
  exact ⟨he.registry, he.library, hplayback, hruns⟩

/-- Time that passes leaves playback standing still. -/
theorem Idles.tick (hJ : Lasts I J) (he : Idles I J e₀ e) (delta : Nanoseconds) :
    Idles I J e₀ (e.tick delta).1 := by
  obtain ⟨p, hp⟩ : ∃ p, p = (e.playback.tick e.env delta).1 := ⟨_, rfl⟩
  have hplayed : Idles I J e₀ { e with playback := p } := by
    rcases (hJ.still he.playback).tick (hJ.settled he.playback) e.env delta with h | ⟨ha, h⟩
    · rw [hp, h]
      exact he
    · have hlibrary : e.playback.interrupt.library = e.library := by
        unfold Playback.interrupt
        rw [Playback.cancelActive_of_idle ha]
        rfl
      rw [hp, h]
      exact he.onPlayback hlibrary (hJ.interrupted he.playback ha)
  obtain ⟨u, hu⟩ : ∃ u, u = ({ e with playback := p } : Engine).reapCancelled := ⟨_, rfl⟩
  have hreaped : Idles I J e₀ u := by
    rw [hu]
    refine hplayed.visit hJ fun r s h => ?_
    split
    · exact (TransientRun.kept_aside hJ e₀.registry p).dropped r s h
    · exact h
  have hturned : Idles I J e₀ (u.turnTransients delta) :=
    hreaped.visit hJ fun r s h => by
      rw [hreaped.registry]
      exact (TransientRun.kept_aside hJ e₀.registry u.playback).advance h _ delta _
  rw [hu, hp] at hturned
  exact hturned

/-- A transient script that is put in line has to keep the property, too. -/
theorem Idles.playTransient (he : Idles I J e₀ e) {name text : String} {scope : CancelScope}
    (hd : (Operation.playTransient name text scope).Queues (·.Keeps I e₀.registry) e₀) :
    Idles I J e₀ (e.playTransient name text scope).1 := by
  unfold Engine.playTransient
  split
  · exact he
  · rename_i d hparse
    rw [he.registry, he.library] at hparse
    refine ⟨he.registry, he.library, he.playback, fun r hr => ?_⟩
    rcases List.mem_append.1 hr with hr | hr
    · exact he.runs r hr
    · rw [List.mem_singleton.1 hr]
      exact ⟨hd d hparse, TransientRun.holds_idle rfl⟩

/-- From a state that can come about playback stands still beside scripts that keep a property. -/
theorem Reachable.idles (h : e.Reachable) (hJ : J e.playback)
    (hruns : ∀ r ∈ e.transients.runs, r.document.Keeps I e.registry) : Idles I J e e :=
  ⟨rfl, rfl, hJ, fun r hr => (h.kempt.sourced r hr).keeps (hruns r hr)⟩

end Engine

end Playhead
