import Playhead.Proofs.Engine.Still

/-!
Transient scripts leave the main script alone while it does not go on by itself: its cursor and its
history and, as long as they have no `return`, its call stack. A `gosub` is refused aside, but a
`return` takes the place of the main script off the stack before its jump is refused.
-/

namespace Playhead

open Playback (Lasts)

namespace Playback

/-- Playback that is over or halted, or waits for input with skip and auto-play off. -/
def Dwells (p : Playback) : Prop :=
  p.player.isRunning = false ∨
    p.cursor.waiting = true ∧ p.cursor.skipping = false ∧ p.cursor.autoPlaying = false

/-- Playback that still dwells where it was, with the same history, over services that have a
property. -/
structure Undisturbed (I : ServiceSet → Prop) (p₀ p : Playback) : Prop where
  settled : p.Settled
  dwells : p.Dwells
  cursor : p.cursor = p₀.cursor
  stack : p.manager.stack = p₀.manager.stack
  services : I p.services

theorem lasts_undisturbed (I : ServiceSet → Prop) (p₀ : Playback) :
    Lasts I (Undisturbed I p₀) where
  still h := h.dwells.imp_right fun hwaits => ⟨hwaits.1, .inr hwaits.2⟩
  settled h := h.settled
  interrupted := by
    intro p h ha
    have hhalted : p.interrupt.player.isRunning = false := by
      unfold interrupt
      show (_ && !true && _) = false
      rw [Bool.not_true, Bool.and_false, Bool.false_and]
    have hsame := p.interrupt_bearings
    refine ⟨settled_of_idle (congrArg Bearings.active hsame), .inl hhalted, ?_,
      (congrArg Bearings.stack hsame).trans h.stack, ?_⟩
    · unfold interrupt
      rw [cancelActive_of_idle ha]
      exact h.cursor
    · unfold interrupt
      rw [cancelActive_of_idle ha]
      exact h.services
  services h := h.services
  write h hs := ⟨h.settled, h.dwells, h.cursor, h.stack, hs⟩
  told h _ := ⟨h.settled, h.dwells, h.cursor, h.stack, h.services⟩

end Playback

/-- A script that has no `return` and no command of the host that meddles with the call stack. -/
def Document.SparesCalls (registry : Registry) (d : Document) : Prop :=
  ∀ t, d.Issues registry t → t.Respects (·.callStack) ∧ t ≠ .returnToCaller

/-- Time that passes, and transient scripts that are put in line. -/
def Operation.IsAside : Operation → Prop
  | .input (.tick _) | .playTransient _ _ _ => True
  | _ => False

/-- A built-in task other than a `return`. -/
def Task.sparesCalls : Task → Bool
  | .host _ | .returnToCaller => false
  | _ => true

/-- A script that has built-in commands only, and no `return`. -/
def Document.sparesCalls (registry : Registry) (d : Document) : Bool :=
  d.commands.all fun c => match registry.get? c.name with
    | none => true
    | some h => match h.begin c with
      | .ok t => t.sparesCalls
      | .error _ => true

variable {registry : Registry} {d : Document}

theorem Document.sparesCalls_of_all (h : d.sparesCalls registry = true) :
    d.SparesCalls registry := by
  rintro t ⟨c, k, hc, hk, ht⟩
  have hcheck : t.sparesCalls = true := by
    obtain ⟨i, hi, rfl⟩ := Array.mem_iff_getElem.1 hc
    have hone := Array.all_eq_true.1 h i hi
    rw [hk] at hone
    dsimp only at hone
    rwa [ht] at hone
  cases t with
  | host t | returnToCaller => cases hcheck
  | _ => exact ⟨False.elim, nofun⟩

theorem Document.SparesCalls.keeps (h : d.SparesCalls registry) (calls : Option CallStack) :
    d.Keeps (·.callStack = calls) registry :=
  fun t ht => (h t ht).1.keepsAside_callStack (h t ht).2 calls

namespace Engine

variable {e : Engine} {ops : List Operation}

/-- Playback that dwells is not disturbed beside transient scripts, which keep what their commands
keep. -/
theorem Reachable.undisturbed {I : ServiceSet → Prop} (h : e.Reachable)
    (hrest : e.playback.Dwells) (hI : I e.services)
    (hruns : ∀ r ∈ e.transients.runs, r.document.Keeps I e.registry)
    (hops : ∀ op ∈ ops, op.IsAside ∧ op.Queues (·.Keeps I e.registry) e) :
    Playback.Undisturbed I e.playback (e.performAll ops).playback := by
  have hJ := Playback.lasts_undisturbed I e.playback
  have hstart : Idles I (Playback.Undisturbed I e.playback) e e :=
    h.idles ⟨h.kempt.settled, hrest, rfl, rfl, hI⟩ hruns
  have hend : Idles I (Playback.Undisturbed I e.playback) e (e.performAll ops) := by
    refine List.foldlRecOn ops Engine.perform hstart fun u hu op hop => ?_
    obtain ⟨haside, hqueues⟩ := hops op hop
    cases op with
    | input i =>
      cases i with
      | tick delta => exact hu.tick hJ delta
      | _ => exact haside.elim
    | playTransient name text scope => exact hu.playTransient hqueues
    | _ => exact haside.elim
  exact hend.playback

/-- While the main script does not go on by itself, transient scripts leave its cursor and its
history as they are, and its call stack, if none of them has a `return`. -/
theorem Reachable.asides_spare (h : e.Reachable) (hrest : e.playback.Dwells)
    (hops : ∀ op ∈ ops, op.IsAside) :
    (e.performAll ops).cursor = e.cursor ∧ (e.performAll ops).stack = e.stack ∧
      ((∀ r ∈ e.transients.runs, r.document.SparesCalls e.registry) →
        (∀ op ∈ ops, op.Queues (·.SparesCalls e.registry) e) →
        (e.performAll ops).services.callStack = e.services.callStack) := by
  have hany : Playback.Undisturbed (fun _ => True) e.playback (e.performAll ops).playback :=
    h.undisturbed hrest trivial (fun r _ => r.document.keeps_true e.registry) fun op hop =>
      ⟨hops op hop, Operation.queues_of_forall (fun d => d.keeps_true e.registry) op e⟩
  refine ⟨hany.cursor, hany.stack, fun hruns hqueues => ?_⟩
  have hspared : Playback.Undisturbed (·.callStack = e.services.callStack) e.playback
      (e.performAll ops).playback :=
    h.undisturbed hrest rfl (fun r hr => (hruns r hr).keeps _) fun op hop =>
      ⟨hops op hop, (hqueues op hop).mono fun d hd => hd.keeps _⟩
  exact hspared.services

/-- A subroutine that waits for input. -/
def waitInside : List Operation :=
  [.loadScript "s" "@gosub .Sub\n@print home\n@stop\n#Sub\n@wait i\n@return\n",
    .playFrom "s" 0, .input (.tick 0)]

/-- A transient script beside it that prints a line and then finds no way out of itself. -/
def printAside (e : Engine) : List Operation :=
  [.playTransient "t" "@print aside\n@gosub s\n" e.player.scope, .input (.tick 0)]

theorem asides_spare_printAside : ∃ e : Engine, e.Reachable ∧ e.playback.Dwells ∧
    e.services.callStack.map (·.frames) = some [⟨"s", 1⟩] ∧
    (∀ op ∈ e.printAside, op.IsAside) ∧
    (∀ r ∈ e.transients.runs, r.document.SparesCalls e.registry) ∧
    (∀ op ∈ e.printAside, op.Queues (·.SparesCalls e.registry) e) ∧
    (e.performAll e.printAside).services.textLog ≠ e.services.textLog ∧
    (e.performAll e.printAside).cursor = e.cursor ∧ (e.performAll e.printAside).stack = e.stack ∧
      (e.performAll e.printAside).services.callStack = e.services.callStack := by
  have hrun : ((build {} {}).toOption.any fun e₀ => (fun e : Engine =>
      e.cursor.waiting = true ∧ e.cursor.skipping = false ∧ e.cursor.autoPlaying = false ∧
        e.services.callStack.map (·.frames) = some [⟨"s", 1⟩] ∧ e.transients.runs.isEmpty ∧
        ((Document.parse e.registry e.library.waitByDefault "t"
          "@print aside\n@gosub s\n").toOption.all fun d => d.sparesCalls e.registry) ∧
        (e.performAll e.printAside).services.textLog ≠ e.services.textLog)
      (e₀.performAll waitInside)) = true := by
    decide +kernel
  obtain ⟨e₀, he₀, hcheck⟩ := (Option.any_eq_true _ _).1 hrun
  obtain ⟨hwaiting, hskip, hauto, hcalls, hidle, hspares, hprints⟩ := of_decide_eq_true hcheck
  obtain ⟨e, he⟩ : ∃ e, e = e₀.performAll waitInside := ⟨_, rfl⟩
  rw [← he] at hwaiting hskip hauto hcalls hidle hspares hprints
  have hreach : e.Reachable := he ▸ (Reachable.build (eq_ok_of_toOption he₀)).performAll _
  have hdwells : e.playback.Dwells := .inr ⟨hwaiting, hskip, hauto⟩
  have hruns : ∀ r ∈ e.transients.runs, r.document.SparesCalls e.registry := by
    rw [List.isEmpty_iff.1 hidle]
    exact fun r hr => (nomatch hr)
  have hops : ∀ op ∈ e.printAside,
      op.IsAside ∧ op.Queues (·.SparesCalls e.registry) e := by
    intro op hop
    rcases List.mem_cons.1 hop with rfl | hop
    · refine ⟨trivial, fun d hd => Document.sparesCalls_of_all ?_⟩
      rw [hd] at hspares
      exact hspares
    · cases List.mem_singleton.1 hop
      exact ⟨trivial, trivial⟩
  have haside := fun op hop => (hops op hop).1
  have hqueues := fun op hop => (hops op hop).2
  obtain ⟨hcursor, hstack, hspared⟩ := hreach.asides_spare hdwells haside
  exact ⟨e, hreach, hdwells, hcalls, haside, hruns, hqueues, hprints, hcursor, hstack,
    hspared hruns hqueues⟩

/-- A transient script that is a `return`. -/
def returnAside (e : Engine) : List Operation :=
  [.playTransient "t" "@return\n" e.player.scope, .input (.tick 0)]

/-- A `return` aside takes the place that the main script was to go back to. -/
theorem asides_spare_returnAside : ∃ e : Engine, e.Reachable ∧ e.playback.Dwells ∧
    (∀ op ∈ e.returnAside, op.IsAside) ∧
    e.services.callStack.map (·.frames) = some [⟨"s", 1⟩] ∧
    (e.performAll e.returnAside).services.callStack.map (·.frames) = some [] := by
  have hrun : ((build {} {}).toOption.any fun e₀ => (fun e : Engine =>
      e.cursor.waiting = true ∧ e.cursor.skipping = false ∧ e.cursor.autoPlaying = false ∧
        e.services.callStack.map (·.frames) = some [⟨"s", 1⟩] ∧
        (e.performAll e.returnAside).services.callStack.map (·.frames) = some [])
      (e₀.performAll waitInside)) = true := by
    decide +kernel
  obtain ⟨e₀, he₀, hcheck⟩ := (Option.any_eq_true _ _).1 hrun
  obtain ⟨hwaiting, hskip, hauto, hcalls, hreturned⟩ := of_decide_eq_true hcheck
  refine ⟨_, (Reachable.build (eq_ok_of_toOption he₀)).performAll waitInside,
    .inr ⟨hwaiting, hskip, hauto⟩, fun op hop => ?_, hcalls, hreturned⟩
  rcases List.mem_cons.1 hop with rfl | hop
  · trivial
  · cases List.mem_singleton.1 hop
    trivial

end Engine

end Playhead
