import Mathlib.Logic.Relation
import Playhead.Proofs.Motion.Kept
import Playhead.Proofs.Script.Staged

/-!
The bearings of main playback: where it is, what it has in flight, what it can go back to and which
scripts were read.

Whatever a host does, the bearings change by turns of a few kinds. What all turns keep holds of
every state that can come about.
-/

namespace Playhead

/-- A library to which scripts were added as they were read. -/
structure ScriptLibrary.Reads (registry : Registry) (l k : ScriptLibrary) : Prop where
  sound : k.Sound registry
  held : ∀ name d, l.get? name = some d → k.get? name = some d
  added : ∀ name d, k.get? name = some d → l.get? name = some d ∨ d.Parsed registry

structure Bearings where
  document : Option Document
  script : String
  revision : UInt64
  index : Option Nat
  played : Nat
  active : Option ActiveCommand
  stack : RollbackStack
  library : ScriptLibrary

/-- What turns may be taken beside those of the player. -/
structure Leeway where
  /-- The cursor may leave a command in flight behind. -/
  veers : Prop
  /-- Scripts may be read anew. -/
  rereads : Prop
  /-- Which snapshots may be taken up with how many commands played. -/
  loads : List Snapshot → Nat → Prop

/-- No turns but those of the player. -/
def Leeway.none : Leeway :=
  ⟨False, False, fun _ _ => False⟩

namespace Bearings

/-- At an index of a script, past whose end playback is over. -/
def moveTo (b : Bearings) (d : Document) (i : Nat) : Bearings :=
  { b with
    document := some d
    script := d.name
    revision := d.revision
    index := if i < d.size then some i else none }

theorem eq_of_idle {b : Bearings} (h : b.active = none) :
    ({ b with active := none } : Bearings) = b := by
  rw [← h]

/-- Whether a script is the one that plays or was read. -/
def Holds (b : Bearings) (d : Document) : Prop :=
  b.document = some d ∨ b.library.get? d.name = some d

/-- All that one turn can be. -/
inductive Turn (registry : Registry) (w : Leeway) (b : Bearings) : Bearings → Prop where
  | start {d : Document} {i : Nat} {c : Command} {h : Handler} {task : Task}
      (hd : b.document = some d) (hi : b.index = some i) (ha : b.active = none)
      (hc : d.command? i = some c) (hr : registry.get? c.name = some h)
      (ht : h.begin c = .ok task) :
      Turn registry w b
        { b with played := b.played + 1, active := some ⟨i, task, h.eligible⟩ }
  /-- A command faults at its start. -/
  | fault (ha : b.active = none) : Turn registry w b { b with played := b.played + 1 }
  | work {a : ActiveCommand} {task : Task} {ctx : Context} {s s' : ServiceSet} {why : Suspension}
      (ha : b.active = some a) (ht : a.task.step ctx s = (.suspended task why, s')) :
      Turn registry w b { b with active := some { a with task := task } }
  | drop : Turn registry w b { b with active := none }
  | pass {d : Document} {i : Nat} (hd : b.document = some d) (hi : i < d.size)
      (hb : b.index ≠ none) (ha : b.active = none) : Turn registry w b { b with index := some i }
  | leave (ha : b.active = none) : Turn registry w b { b with index := none }
  /-- Playback that is not over goes elsewhere. -/
  | move {d : Document} (hd : b.Holds d) (i : Nat) (hb : b.index ≠ none)
      (ha : b.active = none ∨ w.veers) : Turn registry w b (b.moveTo d i)
  /-- A script starts with no history. -/
  | restart {d : Document} (hd : b.library.get? d.name = some d) (i : Nat) (ha : b.active = none)
      (hs : b.stack.snapshots = []) : Turn registry w b { b.moveTo d i with played := 0 }
  /-- Playback goes back to the newest snapshot. -/
  | goBack {d : Document} {x : Snapshot} (hd : b.library.get? d.name = some d)
      (ha : b.active = none) (hx : b.stack.newest? = some x) :
      Turn registry w b { b.moveTo d x.spot.index with played := x.played }
  | load {d : Document} {l : List Snapshot} {played : Nat} (hd : b.library.get? d.name = some d)
      (i : Nat) (ha : b.active = none) (hl : w.loads l played) :
      Turn registry w b { b.moveTo d i with played := played, stack := b.stack.replace l }
  | capture {x : Snapshot} (ha : b.active = none) (hx : x.verify = .ok ())
      (hp : x.played = b.played) : Turn registry w b { b with stack := (b.stack.push x).1 }
  | allow (on : Bool) : Turn registry w b { b with stack := b.stack.allowNewest on }
  | clear : Turn registry w b { b with stack := b.stack.clear }
  | cut (position : Nat) : Turn registry w b { b with stack := b.stack.truncateAfter position }
  | resize (depth : Nat) : Turn registry w b { b with stack := (b.stack.setDepth depth).1 }
  | read {k : ScriptLibrary} (hk : b.library.Reads registry k) :
      Turn registry w b { b with library := k }
  /-- Scripts are read anew. The one that plays keeps its revision. -/
  | reread {k : ScriptLibrary} (hw : w.rereads) (hk : k.Sound registry)
      (hheld : ∀ name, b.library.get? name ≠ none → k.get? name ≠ none)
      (hadded : ∀ name d, k.get? name = some d →
        b.library.get? name = some d ∨ d.Parsed registry)
      (hsame : b.document = none ∨ b.index = none ∨ ∀ d, k.get? b.script = some d →
        b.library.get? b.script = some d ∨ d.revision = b.revision) :
      Turn registry w b { b with library := k }

/-- Finitely many turns. -/
def Turns (registry : Registry) (w : Leeway) : Bearings → Bearings → Prop :=
  Relation.ReflTransGen (Turn registry w)

variable {registry : Registry} {w : Leeway} {b c : Bearings}

theorem Turns.one (h : Turn registry w b c) : Turns registry w b c :=
  .single h

theorem Turns.trans {c' : Bearings} (h : Turns registry w b c) (h' : Turns registry w c c') :
    Turns registry w b c' :=
  Relation.ReflTransGen.trans h h'

/-- What every turn keeps, finitely many turns keep. -/
theorem Turns.keeps {I : Bearings → Prop} (h : Turns registry w b c)
    (hstep : ∀ b c, Turn registry w b c → I b → I c) (hb : I b) : I c := by
  induction h with
  | refl => exact hb
  | tail _ hturn ih => exact hstep _ _ hturn ih

/-- The scripts at hand are as they were read. -/
structure Read (registry : Registry) (b : Bearings) : Prop where
  library : b.library.Sound registry
  document : ∀ d, b.document = some d → d.Staged registry

theorem Read.holds (hb : b.Read registry) {d : Document} (hd : b.Holds d) :
    d.Staged registry := by
  rcases hd with hd | hd
  · exact hb.document d hd
  · exact (hb.library d.name d hd).2

theorem Read.turn (hb : b.Read registry) (h : Turn registry w b c) : c.Read registry := by
  cases h with
  | move hd => exact ⟨hb.library, fun _ h => Option.some.inj h ▸ hb.holds hd⟩
  | restart hd | goBack hd | load hd =>
    exact ⟨hb.library, fun _ h => Option.some.inj h ▸ hb.holds (.inr hd)⟩
  | read hk => exact ⟨hk.sound, hb.document⟩
  | reread hw hk => exact ⟨hk, hb.document⟩
  | _ => exact ⟨hb.library, hb.document⟩

theorem Read.turns (hb : b.Read registry) (h : Turns registry w b c) : c.Read registry :=
  h.keeps (fun _ _ hturn hb => hb.turn hturn) hb

/-- All scripts at hand were read, and so was the one that plays. -/
structure Parsed (registry : Registry) (b : Bearings) : Prop where
  library : ∀ name d, b.library.get? name = some d → d.Parsed registry
  document : ∀ d, b.document = some d → d.Parsed registry

theorem Parsed.turn (hb : b.Parsed registry) (h : Turn registry w b c) : c.Parsed registry := by
  have hadd : ∀ k : ScriptLibrary, (∀ name d, k.get? name = some d →
      b.library.get? name = some d ∨ d.Parsed registry) →
      ∀ name d, k.get? name = some d → d.Parsed registry :=
    fun k hk name d hd => (hk name d hd).elim (hb.library name d) id
  cases h with
  | move hd =>
    exact ⟨hb.library, fun _ h => Option.some.inj h ▸ hd.elim (hb.document _) (hb.library _ _)⟩
  | restart hd | goBack hd | load hd =>
    exact ⟨hb.library, fun _ h => Option.some.inj h ▸ hb.library _ _ hd⟩
  | read hk => exact ⟨hadd _ hk.added, hb.document⟩
  | reread hw hk hheld hadded => exact ⟨hadd _ hadded, hb.document⟩
  | _ => exact ⟨hb.library, hb.document⟩

/-- A script that comes to be held was read. -/
theorem Turns.added (h : Turns registry w b c) :
    ∀ name d, c.library.get? name = some d → b.library.get? name = some d ∨ d.Parsed registry := by
  refine h.keeps (I := fun c => ∀ name d, c.library.get? name = some d →
    b.library.get? name = some d ∨ d.Parsed registry) (fun c c' hturn hc => ?_) fun _ _ => .inl
  have hadd : ∀ k : ScriptLibrary, (∀ name d, k.get? name = some d →
      c.library.get? name = some d ∨ d.Parsed registry) →
      ∀ name d, k.get? name = some d → b.library.get? name = some d ∨ d.Parsed registry :=
    fun k hk name d hd => (hk name d hd).elim (hc name d) .inr
  cases hturn with
  | read hk => exact hadd _ hk.added
  | reread hw hk hheld hadded => exact hadd _ hadded
  | _ => exact hc

/-- Unless scripts are read anew, those that were read are kept. -/
theorem Turns.held (h : Turns registry w b c) (hw : ¬w.rereads) {name : String} {d : Document}
    (hd : b.library.get? name = some d) : c.library.get? name = some d := by
  refine h.keeps (I := fun b => b.library.get? name = some d) (fun b c hturn hd => ?_) hd
  cases hturn with
  | read hk => exact hk.held name d hd
  | reread hw' => exact absurd hw' hw
  | _ => exact hd

end Bearings

namespace Playback

def bearings (p : Playback) : Bearings where
  document := p.player.document
  script := p.cursor.script
  revision := p.cursor.revision
  index := p.cursor.index
  played := p.cursor.played
  active := p.player.active
  stack := p.manager.stack
  library := p.library

/-- Main playback gets from one state to another by turns. -/
def Turns (env : Env) (w : Leeway) (p q : Playback) : Prop :=
  Bearings.Turns env.source.registry w p.bearings q.bearings

variable {env : Env} {w : Leeway} {p q r : Playback}

theorem Turns.refl (p : Playback) : Turns env w p p :=
  Relation.ReflTransGen.refl

theorem Turns.trans (h : Turns env w p q) (h' : Turns env w q r) : Turns env w p r :=
  Bearings.Turns.trans h h'

theorem Turns.of_eq (h : q.bearings = p.bearings) : Turns env w p q := by
  unfold Turns
  rw [h]
  exact Relation.ReflTransGen.refl

theorem Turns.one (h : Bearings.Turn env.source.registry w p.bearings q.bearings) :
    Turns env w p q :=
  Bearings.Turns.one h

section

variable (p : Playback)

@[simp]
theorem bearings_emit (e : Event) : (p.emit e).bearings = p.bearings := rfl

@[simp]
theorem bearings_withServices (s : ServiceSet) : (p.withServices s).bearings = p.bearings := rfl

@[simp]
theorem bearings_setSkip (on : Bool) : (p.setSkip on).bearings = p.bearings := by
  unfold setSkip
  split <;> rfl

@[simp]
theorem bearings_setAutoPlay (on : Bool) : (p.setAutoPlay on).bearings = p.bearings := by
  unfold setAutoPlay
  split <;> rfl

@[simp]
theorem bearings_enterWait : p.enterWait.bearings = p.bearings := rfl

@[simp]
theorem bearings_continueInput : p.continueInput.bearings = p.bearings := by
  unfold continueInput
  split <;> rfl

@[simp]
theorem bearings_presentChoices : p.presentChoices.bearings = p.bearings := by
  unfold presentChoices
  split <;> simp

@[simp]
theorem bearings_settleWaiting (waiting : Bool) :
    (p.settleWaiting waiting).bearings = p.bearings := by
  unfold settleWaiting
  split
  · simp
  · split <;> simp

@[simp]
theorem bearings_enterScript (d : Document) : (p.enterScript d).bearings = p.bearings := by
  unfold enterScript
  split <;> rfl

@[simp]
theorem bearings_trackRead (env : Env) (s : Spot) :
    (p.trackRead env s).bearings = p.bearings := by
  unfold trackRead
  split
  · rfl
  · dsimp only
    split <;> simp

@[simp]
theorem bearings_settle (c : Completion) (adds : Bool) :
    (p.settle c adds).bearings = p.bearings := by
  unfold settle
  split
  · rfl
  · split
    · rfl
    · split
      · simp
      · split <;> simp

@[simp]
theorem bearings_checkForward (d : Document) (i : Nat) :
    (p.checkForward d i).1.bearings = p.bearings := by
  unfold checkForward
  split
  · rfl
  · split <;> rfl

@[simp]
theorem bearings_leaveWait (env : Env) (delta : Nanoseconds) :
    (p.leaveWait env delta).1.bearings = p.bearings := by
  obtain ⟨t, h⟩ | ⟨t, h⟩ := leaveWait_cases env p delta <;> rw [h] <;> rfl

theorem bearings_cancelActive :
    p.cancelActive.bearings = { p.bearings with active := none } := by
  unfold cancelActive
  cases ha : p.player.active with
  | none =>
    unfold bearings
    rw [ha]
  | some a => rfl

theorem bearings_stop (reason : StopReason) :
    (p.stop reason).bearings = { p.bearings with active := none, index := none } := by
  have h := p.bearings_cancelActive
  show { p.cancelActive.bearings with index := none } = _
  rw [h]

theorem bearings_moveTo (d : Document) (i : Nat) (atEnd : StopReason) :
    (p.moveTo d i atEnd).bearings = p.bearings.moveTo d i := by
  obtain ⟨r, hr⟩ : ∃ r, r = p.enterScript d := ⟨_, rfl⟩
  rw [← p.bearings_enterScript d, ← hr]
  unfold moveTo Bearings.moveTo
  rw [← hr]
  by_cases hi : d.size ≤ i
  · rw [if_neg (Nat.not_lt.2 hi)]
    simp only [if_pos hi]
    rfl
  · rw [if_pos (Nat.lt_of_not_le hi)]
    simp only [if_neg hi]
    rfl

theorem bearings_start (d : Document) (i : Nat) :
    (p.start d i).bearings =
      { ({ p.bearings with active := none } : Bearings).moveTo d i with played := 0 } := by
  have h : (p.cancelActive.setSkip false).bearings = { p.bearings with active := none } := by
    rw [bearings_setSkip, bearings_cancelActive]
  obtain ⟨r, hr⟩ : ∃ r, r = p.cancelActive.setSkip false := ⟨_, rfl⟩
  rw [← h]
  unfold start Bearings.moveTo
  rw [← hr]
  by_cases hi : d.size ≤ i
  · rw [if_neg (Nat.not_lt.2 hi)]
    simp only [if_pos hi]
    rfl
  · rw [if_pos (Nat.lt_of_not_le hi)]
    simp only [if_neg hi]
    rfl

theorem bearings_restorePosition (d : Document) (i played : Nat) (waiting : Bool) :
    (p.restorePosition d i played waiting).bearings =
      { ({ p.bearings with active := none } : Bearings).moveTo d i with played := played } := by
  have h : ((p.cancelActive.setSkip false).enterScript d).bearings =
      { p.bearings with active := none } := by
    rw [bearings_enterScript, bearings_setSkip, bearings_cancelActive]
  unfold restorePosition
  dsimp only
  rw [bearings_settleWaiting, ← h]
  rfl

/-- A capture pushes a snapshot that passes its own check, if it takes one. -/
theorem bearings_capture (d : Document) (next : Nat) (c : Completion) :
    (p.capture d next c).bearings = p.bearings ∨ ∃ x : Snapshot, x.verify = .ok () ∧
      x.played = p.bearings.played ∧
      (p.capture d next c).bearings = { p.bearings with stack := (p.bearings.stack.push x).1 } := by
  unfold capture StateManager.capture
  cases StateMap.collect p.services .game with
  | error e => exact .inl rfl
  | ok records =>
    refine .inr ⟨{ Snapshot.make ⟨d.name, next⟩ d.revision p.cursor.played records with
      waiting := c.waitForInput, allowed := c.allowRollback && c.waitForInput }, ?_, rfl, ?_⟩
    · simp [Snapshot.verify, Snapshot.make]
    · dsimp only
      split <;> rfl

end

end Playback

end Playhead
