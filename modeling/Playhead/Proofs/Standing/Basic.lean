import Playhead.Command.Builtin
import Playhead.Proofs.Motion.Kept

/-!
Where a story stands: all that decides which commands are played next.

One step of a standing starts a command, completes the one that was started, or leaves one out.
Time, input waits, skipping and the bound on the commands of a tick have no part in it.
-/

namespace Playhead

def Builtin.names : List String :=
  handlers.map (·.name)

/-- The scripts that playback can come to, by name, and the kinds of their commands. -/
structure Shelf where
  registry : Registry
  script : String → Except LibraryError Document

/-- What can be noted of a step: an event, or the services after a command that completed. -/
inductive Note where
  | event (e : Event)
  | after (s : ServiceSet)

def Note.event? : Note → Option Event
  | .event e => some e
  | .after _ => none

def Note.after? : Note → Option ServiceSet
  | .event _ => none
  | .after s => some s

namespace Shelf

/-- A script by name, where the one that plays stands for itself. -/
def document (w : Shelf) (current : Document) (name : String) : Except JumpError Document :=
  if name = current.name then .ok current
  else
    match w.script name with
    | .ok d => .ok d
    | .error e => .error (.library e)

/-- The script and index that a target names. -/
def resolve (w : Shelf) (current : Document) : JumpTarget → Except JumpError (Document × Nat)
  | .label script label =>
    match w.document current (script.getD current.name) with
    | .error e => .error e
    | .ok d =>
      match label with
      | none => .ok (d, 0)
      | some label =>
        match d.labelIndex? label with
        | some index => .ok (d, index)
        | none => .error (.unknownLabel d.name label)
  | .spot s =>
    match w.document current s.script with
    | .error e => .error e
    | .ok d => if d.size < s.index then .error (.invalidSpot s) else .ok (d, s.index)

/-- Where a flow leads from a command. -/
def follow (w : Shelf) (d : Document) (index : Nat) : Flow → Except JumpError (Document × Nat)
  | .advance | .stop => .ok (d, index + 1)
  | .branch taken => .ok (d, (d.branchNext index taken).1)
  | .jump target => w.resolve d target

end Shelf

/-- The services without what was read and what the player prefers, on which no command depends. -/
def ServiceSet.story (s : ServiceSet) : ServiceSet :=
  { s with played := none, preferences := none }

/-- How a command of this kind completes once no wait holds it up. -/
def Handler.outcome (h : Handler) (c : Command) (spot : Spot) (s : ServiceSet) :
    Completion × ServiceSet :=
  match h.begin c with
  | .error _ => (.ofFault c.role, s)
  | .ok task =>
    match task.step ⟨c, spot, 0, true, false, false⟩ s with
    | (.completed done, s) => (done, s)
    | (.faulted _, s) => (.ofFault c.role, s)
    | (.suspended _ _, s) => ({}, s)

structure Standing where
  document : Option Document
  /-- The next command, or the one that was started; none once the story is over. -/
  index : Option Nat
  arrived : Bool
  /-- Whether the command at the index was started. -/
  busy : Bool
  played : Nat
  services : ServiceSet

namespace Standing

/-- At an index of a script, past whose end the story is over. -/
def moveTo (s : Standing) (d : Document) (index : Nat) : Standing :=
  { s with document := some d, index := if index < d.size then some index else none }

/-- Leaves out the command at the index and goes on at another one. -/
def pass (s : Standing) (d : Document) (index : Nat) : List Note × Standing :=
  (if index < d.size then [] else [.event (.stopped .endOfScript)],
    { s with arrived := false }.moveTo d index)

def start (s : Standing) (d : Document) (index : Nat) (c : Command) : List Note × Standing :=
  ([.event (.commandExecuted ⟨d.name, index⟩ c.name)],
    { s with arrived := false, busy := true, played := s.played + 1 })

/-- What follows at the position after a command: playback ends, halts or presents options. -/
def aftermath (registry : Registry) (done : Completion) (d : Document) (index : Nat)
    (s : ServiceSet) : List Note :=
  if d.size ≤ index then
    [.event (.stopped (if done.flow = .stop then .command else .endOfScript))]
  else if done.flow = .stop then [.event (.stopped .command)]
  else if s.choicesPending && !Playback.addsChoice registry d index then
    [.event (.choicePresented s.pendingChoices)]
  else []

/-- Whether a flow comes to its next command from a branch that is not taken. -/
def arrives (s : Standing) (d : Document) (index : Nat) : Flow → Bool
  | .branch taken => (d.branchNext index taken).2
  | _ => s.arrived

/-- Goes on after a command. A jump that leads nowhere ends the story. -/
def finish (w : Shelf) (s : Standing) (d : Document) (index : Nat) (done : Completion)
    (after : ServiceSet) : List Note × Standing :=
  let t := { s with
    arrived := s.arrives d index done.flow, busy := false, services := after }
  match w.follow d index done.flow with
  | .error e => ([.after after, .event (.stopped (.fault e.message))], { t with index := none })
  | .ok (next, i) => (.after after :: aftermath w.registry done next i after, t.moveTo next i)

/-- Completes the command at an index. -/
def complete (w : Shelf) (s : Standing) (d : Document) (index : Nat) (c : Command)
    (h : Handler) : List Note × Standing :=
  let r := h.outcome c ⟨d.name, index⟩ s.services
  s.finish w d index r.1 r.2

/-- One step, with what can be noted of it; none once the story is over. -/
def next (w : Shelf) (s : Standing) : Option (List Note × Standing) :=
  match s.document, s.index with
  | some d, some index =>
    match d.command? index with
    | none => none
    | some c =>
      if s.busy then (w.registry.get? c.name).map (s.complete w d index c)
      else
        match d.entry index s.arrived s.services with
        | .skip next => some (s.pass d next)
        | .run =>
          match w.registry.get? c.name with
          | none => some (s.pass d (index + 1))
          | some _ => some (s.start d index c)
  | _, _ => none

section

variable {w : Shelf} {s : Standing} {d : Document} {index : Nat} {c : Command} {h : Handler}

theorem next_start (hd : s.document = some d) (hi : s.index = some index)
    (hc : d.command? index = some c) (hb : s.busy = false)
    (he : d.entry index s.arrived s.services = .run) (hr : w.registry.get? c.name = some h) :
    s.next w = some (s.start d index c) := by
  simp [next, hd, hi, hc, hb, he, hr]

theorem next_pass {i : Nat} (hd : s.document = some d) (hi : s.index = some index)
    (hc : d.command? index = some c) (hb : s.busy = false)
    (he : d.entry index s.arrived s.services = .skip i) :
    s.next w = some (s.pass d i) := by
  simp [next, hd, hi, hc, hb, he]

theorem next_complete (hd : s.document = some d) (hi : s.index = some index)
    (hc : d.command? index = some c) (hb : s.busy = true)
    (hr : w.registry.get? c.name = some h) :
    s.next w = some (s.complete w d index c h) := by
  simp [next, hd, hi, hc, hb, hr]

end

/-- All that one step can be. -/
inductive Moves (w : Shelf) (s : Standing) : List Note → Standing → Prop where
  | start {d : Document} {index : Nat} {c : Command} {h : Handler} (hd : s.document = some d)
      (hi : s.index = some index) (hc : d.command? index = some c) (hb : s.busy = false)
      (he : d.entry index s.arrived s.services = .run) (hr : w.registry.get? c.name = some h) :
      Moves w s (s.start d index c).1 (s.start d index c).2
  | pass {d : Document} {index i : Nat} {c : Command} (hd : s.document = some d)
      (hi : s.index = some index) (hc : d.command? index = some c) (hb : s.busy = false)
      (he : d.entry index s.arrived s.services = .skip i ∨
        d.entry index s.arrived s.services = .run ∧ w.registry.get? c.name = none ∧
          i = index + 1) :
      Moves w s (s.pass d i).1 (s.pass d i).2
  | complete {d : Document} {index : Nat} {c : Command} {h : Handler} (hd : s.document = some d)
      (hi : s.index = some index) (hc : d.command? index = some c) (hb : s.busy = true)
      (hr : w.registry.get? c.name = some h) :
      Moves w s (s.complete w d index c h).1 (s.complete w d index c h).2

theorem moves_of_next {w : Shelf} {s t : Standing} {l : List Note}
    (h : s.next w = some (l, t)) : Moves w s l t := by
  unfold next at h
  split at h
  · rename_i d index hd hi
    split at h
    · cases h
    · rename_i c hc
      split at h
      · rename_i hb
        obtain ⟨k, hr, hk⟩ := Option.map_eq_some_iff.1 h
        obtain ⟨rfl, rfl⟩ := Prod.mk.inj hk.symm
        exact .complete hd hi hc hb hr
      · rename_i hb
        have hb := Bool.eq_false_iff.2 hb
        split at h
        · rename_i i he
          obtain ⟨rfl, rfl⟩ := Prod.mk.inj (Option.some.inj h).symm
          exact .pass hd hi hc hb (.inl he)
        · rename_i he
          split at h
          · rename_i hr
            obtain ⟨rfl, rfl⟩ := Prod.mk.inj (Option.some.inj h).symm
            exact .pass hd hi hc hb (.inr ⟨he, hr, rfl⟩)
          · rename_i k hr
            obtain ⟨rfl, rfl⟩ := Prod.mk.inj (Option.some.inj h).symm
            exact .start hd hi hc hb he hr
  · cases h

theorem next_of_moves {w : Shelf} {s t : Standing} {l : List Note} (h : Moves w s l t) :
    s.next w = some (l, t) := by
  cases h with
  | start hd hi hc hb he hr => exact next_start hd hi hc hb he hr
  | pass hd hi hc hb he =>
    rcases he with he | ⟨he, hr, rfl⟩
    · exact next_pass hd hi hc hb he
    · simp [next, hd, hi, hc, hb, he, hr]
  | complete hd hi hc hb hr => exact next_complete hd hi hc hb hr

/-- Finitely many steps and what can be noted of them. -/
inductive Leads (w : Shelf) : Standing → List Note → Standing → Prop where
  | refl (s : Standing) : Leads w s [] s
  | step {s t u : Standing} {l m : List Note} (h : s.next w = some (l, t)) (tail : Leads w t m u) :
    Leads w s (l ++ m) u

namespace Leads

variable {w : Shelf} {s t u : Standing} {l m : List Note}

theorem one (h : s.next w = some (l, t)) : Leads w s l t := by
  have := Leads.step h (.refl t)
  rwa [List.append_nil] at this

theorem trans (h : Leads w s l t) (h' : Leads w t m u) : Leads w s (l ++ m) u := by
  induction h with
  | refl => exact h'
  | step hs _ ih =>
    rw [List.append_assoc]
    exact .step hs (ih h')

/-- Of two ways from one standing, one goes on from the end of the other. -/
theorem comparable (h : Leads w s l t) (h' : Leads w s m u) :
    (∃ r, Leads w t r u ∧ m = l ++ r) ∨ ∃ r, Leads w u r t ∧ l = m ++ r := by
  induction h generalizing m u with
  | refl => exact .inl ⟨m, h', rfl⟩
  | @step s t v l₁ l₂ hs tail ih =>
    cases h' with
    | refl => exact .inr ⟨_, .step hs tail, rfl⟩
    | @step _ t' _ m₁ m₂ hs' tail' =>
      rw [hs] at hs'
      obtain ⟨rfl, rfl⟩ := Prod.mk.inj (Option.some.inj hs')
      rcases ih tail' with ⟨r, hr, he⟩ | ⟨r, hr, he⟩
      · exact .inl ⟨r, hr, by rw [he, List.append_assoc]⟩
      · exact .inr ⟨r, hr, by rw [he, List.append_assoc]⟩

/-- Where no step is left, only the way that stays is. -/
theorem eq_of_over (h : Leads w s l t) (hs : s.next w = none) : l = [] ∧ t = s := by
  cases h with
  | refl => exact ⟨rfl, rfl⟩
  | step h' => rw [hs] at h'; cases h'

end Leads

/-- All that one step can be where commands of the host are played as well: nothing is known of
what these do to the services and of how they end. -/
inductive Goes (w : Shelf) (s : Standing) : List Note → Standing → Prop where
  | move {l : List Note} {t : Standing} (h : Moves w s l t) : Goes w s l t
  | work {d : Document} {index : Nat} {c : Command} (hd : s.document = some d)
      (hi : s.index = some index) (hc : d.command? index = some c) (hb : s.busy = true)
      (hn : c.name ∉ Builtin.names) (after : ServiceSet) : Goes w s [] { s with services := after }
  | finish {d : Document} {index : Nat} {c : Command} (hd : s.document = some d)
      (hi : s.index = some index) (hc : d.command? index = some c) (hb : s.busy = true)
      (hn : c.name ∉ Builtin.names) (done : Completion) (after : ServiceSet) :
      Goes w s (s.finish w d index done after).1 (s.finish w d index done after).2

/-- Finitely many steps where commands of the host are played as well. -/
inductive Roams (w : Shelf) : Standing → List Note → Standing → Prop where
  | refl (s : Standing) : Roams w s [] s
  | step {s t u : Standing} {l m : List Note} (h : Goes w s l t) (tail : Roams w t m u) :
    Roams w s (l ++ m) u

namespace Roams

variable {w : Shelf} {s t u : Standing} {l m : List Note}

theorem one (h : Goes w s l t) : Roams w s l t := by
  have := Roams.step h (.refl t)
  rwa [List.append_nil] at this

theorem trans (h : Roams w s l t) (h' : Roams w t m u) : Roams w s (l ++ m) u := by
  induction h with
  | refl => exact h'
  | step hs _ ih =>
    rw [List.append_assoc]
    exact .step hs (ih h')

end Roams

end Standing

end Playhead
