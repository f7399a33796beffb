import Playhead.Proofs.Bearings.Engine
import Playhead.Proofs.Bearings.Placed
import Playhead.Proofs.Engine.Drive
import Playhead.Proofs.State.Saves

/-!
What a host can do with an engine, and the states that come about.

Main statement: playback is never at a stale position, whatever the host does and whatever becomes
of the resources and files that scripts are read from.
-/

namespace Playhead

/-- A call of the host. -/
inductive Operation where
  | input (i : Input)
  | playFrom (script : String) (index : Nat)
  | playStart
  | playLabel (script label : String)
  | preload (script : String)
  | stop
  | playTransient (name text : String) (scope : CancelScope)
  | takeStatus (h : TransientHandle)
  | cancelTransients
  | resetState
  | setDepth (depth : Nat)
  | rollback (target : RollbackTarget)
  | rollbackWhere (p : Snapshot → Bool)
  | allowRollback (allowed : Bool)
  | rewind (target : RewindTarget)
  | save (slot : String)
  | load (slot : String)
  | quickSave
  | quickLoad
  | delete (slot : String)
  | saveGlobal
  | loadGlobal
  | saveSettings
  | loadSettings
  | loadScript (name text : String)
  | reloadScript (name : String)
  /-- The host changes the services by itself. -/
  | write (s : ServiceSet)
  /-- The host opens scopes or cancels some. -/
  | setScopes (c : Cancellations)
  | drain

/-- All turns that a host can bring about: snapshots are taken up only if they pass their own
check. Scripts may be read anew or not. -/
def Leeway.free (rereads : Prop) : Leeway :=
  ⟨True, rereads, fun l _ => ∀ x ∈ l, x.verify = .ok ()⟩

/-- Whether an operation reads a script anew. -/
def Operation.Rereads : Operation → Prop
  | .loadScript _ _ | .reloadScript _ => True
  | _ => False

namespace Engine

def perform (e : Engine) : Operation → Engine
  | .input i => e.take i
  | .playFrom script index => (e.playFrom script index).1
  | .playStart => e.playStartScript.1
  | .playLabel script label => (e.playFromLabel script label).1
  | .preload script => (e.preloadAndPlay script).1
  | .stop => e.stop
  | .playTransient name text scope => (e.playTransient name text scope).1
  | .takeStatus h => { e with transients := (e.transients.takeStatus h).2 }
  | .cancelTransients => e.cancelTransients
  | .resetState => e.resetState
  | .setDepth depth => e.setRollbackDepth depth
  | .rollback target => (e.rollback target).1
  | .rollbackWhere p => (e.rollbackWhere p).1
  | .allowRollback allowed => (e.allowPlayerRollback allowed).1
  | .rewind target => (e.rewindTo target).1
  | .save slot => (e.saveGame slot).1
  | .load slot => (e.loadGame slot).1
  | .quickSave => e.quickSave.1
  | .quickLoad => e.quickLoad.1
  | .delete slot => (e.deleteGame slot).1
  | .saveGlobal => e.saveGlobal.1
  | .loadGlobal => e.loadGlobal.1
  | .saveSettings => e.saveSettings.1
  | .loadSettings => e.loadSettings.1
  | .loadScript name text => (e.loadScript name text).1
  | .reloadScript name => (e.reloadScript name).1
  | .write s => e.withServices s
  | .setScopes c => e.withScopes c
  | .drain => e.drainEvents.2

def performAll (e : Engine) (l : List Operation) : Engine :=
  l.foldl perform e

theorem performAll_cons (e : Engine) (op : Operation) (rest : List Operation) :
    e.performAll (op :: rest) = (e.perform op).performAll rest := rfl

end Engine

/-- Whether an operation stays within a leeway. -/
def Operation.Within (w : Leeway) (e : Engine) : Operation → Prop
  | .input (.select index) => ∀ o, e.services.pendingChoices[index]? = some o → o.goto ≠ none →
    e.player.active = none ∨ w.veers
  | .load slot => ∀ save record, e.Saved slot save record →
    w.loads save.rollback record.played ∧ w.loads [] record.played
  | .quickLoad => ∀ save record, e.Saved e.config.state.quickSlot save record →
    w.loads save.rollback record.played ∧ w.loads [] record.played
  | .loadScript _ _ | .reloadScript _ => w.rereads
  | _ => True

namespace Engine

variable {w : Leeway} {e : Engine} {op : Operation}

theorem insert_get? {registry : Registry} {l k : ScriptLibrary} {name text : String}
    {d : Document} (h : l.insert registry name text = .ok (d, k)) (other : String) :
    k.get? other = if name = other then some d else l.get? other := by
  unfold ScriptLibrary.insert at h
  cases hp : Document.parse registry l.waitByDefault name text with
  | error err =>
    rw [hp] at h
    cases h
  | ok d' =>
    rw [hp] at h
    cases h
    exact NameMap.get?_insert l.documents name other d

theorem loadScript_turns (he : e.Read) (hw : w.rereads) (name text : String) :
    Turns w e (e.loadScript name text).1 := by
  refine replaceScript_turns hw fun d k h => ?_
  have hl : e.library.Sound e.registry := he.scripts.library
  obtain ⟨hk, hname, -⟩ := hl.insert he.registry h
  have hget := insert_get? h
  refine ⟨hk, ScriptLibrary.parsed_of_insert h, ?_, fun other hne => ?_⟩
  · rw [hget, hname, if_pos rfl]
  · rw [hget, if_neg]
    rw [← hname]
    exact fun h => hne h.symm

theorem reloadScript_turns (he : e.Read) (hw : w.rereads) (name : String) :
    Turns w e (e.reloadScript name).1 := by
  refine replaceScript_turns hw fun d k h => ?_
  have hl : e.library.Sound e.source.registry := he.scripts.library
  obtain ⟨hk, hname, -⟩ := hl.reload he.registry h
  have hget : ∀ other, k.get? other = if name = other then some d else e.library.get? other := by
    intro other
    rw [ScriptLibrary.reload_eq_ok h]
    exact NameMap.get?_insert e.library.documents name other d
  refine ⟨hk, ScriptLibrary.parsed_of_reload h, ?_, fun other hne => ?_⟩
  · rw [hget, hname, if_pos rfl]
  · rw [hget, if_neg]
    rw [← hname]
    exact fun h => hne h.symm

theorem perform_turns (he : e.Read) (h : op.Within w e) : Turns w e (e.perform op) := by
  cases op with
  | input i =>
    cases i with
    | tick delta => exact tick_turns he delta
    | goOn => exact .of_eq e.playback.bearings_continueInput rfl
    | cancel =>
      refine .of_eq ?_ rfl
      show ((e.playback.setSkip false).setAutoPlay false).bearings = _
      rw [Playback.bearings_setAutoPlay, Playback.bearings_setSkip]
      rfl
    | skip on => exact .of_eq (e.playback.bearings_setSkip on) rfl
    | auto on => exact .of_eq (e.playback.bearings_setAutoPlay on) rfl
    | resume => exact resume_turns e
    | select index => exact selectChoice_turns he index h
  | playFrom script index => exact (e.startsScript_playFrom script index).turns he
  | playStart => exact e.startsScript_playStartScript.turns he
  | playLabel script label => exact (e.startsScript_playFromLabel script label).turns he
  | preload script => exact (e.startsScript_preloadAndPlay script).turns he
  | stop => exact stopped_turns e
  | playTransient name text scope =>
    obtain ⟨hb, hr⟩ := playTransient_eq e name text scope
    exact .of_eq hb hr
  | setDepth depth => exact .one (.resize (b := e.bearings) depth) rfl
  | rollback target => exact rollbackTo_turns he _
  | rollbackWhere p => exact rollbackTo_turns he _
  | allowRollback allowed => exact .one (.allow (b := e.bearings) allowed) rfl
  | rewind target => exact rewindTo_turns he target
  | save slot => exact saveGame_turns e slot
  | load slot => exact loadGame_turns he slot h
  | quickSave => exact saveGame_turns e _
  | quickLoad => exact loadGame_turns he _ h
  | saveGlobal => exact saveScope_turns e _ _
  | loadGlobal => exact loadScope_turns e _ _
  | saveSettings => exact saveScope_turns e _ _
  | loadSettings => exact loadScope_turns e _ _
  | loadScript name text => exact loadScript_turns he h name text
  | reloadScript name => exact reloadScript_turns he h name
  | _ => exact .of_eq rfl rfl

/-- Whether every operation of a run stays within a leeway. -/
def WithinAll (w : Leeway) (e : Engine) (l : List Operation) : Prop :=
  ∀ before op after, l = before ++ op :: after → op.Within w (e.performAll before)

theorem performAll_turns {l : List Operation} (he : e.Read) (h : e.WithinAll w l) :
    Turns w e (e.performAll l) := by
  induction l generalizing e with
  | nil => exact .refl e
  | cons op rest ih =>
    have hop := perform_turns (w := w) he (h [] op rest rfl)
    refine hop.trans (ih (he.turns hop) fun before op' after heq => ?_)
    exact h (op :: before) op' after (by rw [heq]; rfl)

theorem within_free {rereads : Prop} (h : op.Rereads → rereads) : op.Within (.free rereads) e := by
  cases op with
  | input i =>
    cases i with
    | select index => exact fun _ _ _ => .inr trivial
    | _ => exact trivial
  | load slot | quickLoad =>
    rintro save record ⟨map, -, hmap, -⟩
    exact ⟨GameSave.verify_of_ofMap hmap, fun x hx => absurd hx List.not_mem_nil⟩
  | loadScript name text | reloadScript name => exact h trivial
  | _ => exact trivial

theorem performAll_free (he : e.Read) (l : List Operation) :
    Turns (.free True) e (e.performAll l) :=
  performAll_turns he fun _ _ _ _ => within_free fun _ => trivial

/-- An engine that was just built is at rest, with nothing in flight, no history and no script. -/
structure Fresh (e : Engine) : Prop where
  read : e.Read
  library : ∀ name, e.bearings.library.get? name = none
  document : e.bearings.document = none
  index : e.bearings.index = none
  active : e.bearings.active = none
  stack : e.bearings.stack.snapshots = []

theorem fresh_build {config : Config} {parts : EngineParts} (h : build config parts = .ok e) :
    e.Fresh := by
  obtain ⟨registry, services, -, hregistry, -, rfl⟩ := build_eq_ok h
  refine ⟨⟨sound_registerAll hregistry, ?_, fun d hd => ?_⟩, fun _ => rfl, rfl, rfl, rfl, rfl⟩
  · exact ScriptLibrary.sound_empty registry config.scripts.root config.player.waitByDefault
  · cases hd

end Engine

end Playhead

namespace Playhead.Engine

/-- An engine with other resources and files behind it. -/
def supply (e : Engine) (resources : Resources) (files : FileTree) : Engine :=
  { e with resources := resources, files := files }

/-- The states that can come about. Resources and files may change at any time. -/
inductive Reachable : Engine → Prop where
  | build {config : Config} {parts : EngineParts} {e : Engine} (h : build config parts = .ok e) :
      Reachable e
  | perform {e : Engine} (h : Reachable e) (op : Operation) : Reachable (e.perform op)
  | supply {e : Engine} (h : Reachable e) (resources : Resources) (files : FileTree) :
      Reachable (e.supply resources files)

variable {e : Engine}

theorem supply_turns (w : Leeway) (e : Engine) (resources : Resources) (files : FileTree) :
    Turns w e (e.supply resources files) :=
  .of_eq rfl rfl

theorem Reachable.performAll (h : e.Reachable) (l : List Operation) :
    (e.performAll l).Reachable := by
  induction l generalizing e with
  | nil => exact h
  | cons op rest ih => exact ih (h.perform op)

/-- What every turn keeps, every state that can come about has. -/
theorem Reachable.keeps (h : e.Reachable) {I : Registry → Bearings → Prop}
    (hfresh : ∀ e : Engine, e.Fresh → I e.registry e.bearings)
    (hturn : ∀ registry b c, Bearings.Turn registry (.free True) b c → I registry b →
      I registry c) : e.Read ∧ I e.registry e.bearings := by
  have hkeeps : ∀ {e e' : Engine}, Turns (.free True) e e' → e.Read ∧ I e.registry e.bearings →
      e'.Read ∧ I e'.registry e'.bearings := fun h he =>
    ⟨he.1.turns h, h.registry ▸ h.turns.keeps (hturn _) he.2⟩
  induction h with
  | build h => exact ⟨(fresh_build h).read, hfresh _ (fresh_build h)⟩
  | perform h op ih => exact hkeeps (perform_turns ih.1 (within_free fun _ => trivial)) ih
  | supply h resources files ih => exact hkeeps (supply_turns _ _ resources files) ih

theorem Reachable.read (h : e.Reachable) : e.Read :=
  (h.keeps (I := fun _ _ => True) (fun _ _ => trivial) fun _ _ _ _ h => h).1

theorem Reachable.current (h : e.Reachable) : e.bearings.Current :=
  (h.keeps (I := fun _ => Bearings.Current)
    (fun _ he => Bearings.current_of_document he.document he.index)
    fun _ _ _ hturn hb => hb.turn hturn).2

/-- Playback is over, or the cursor is at a command of the script that plays and bears its name and
its revision, which the script that is held under this name has, too. -/
theorem Reachable.cursor_current (h : e.Reachable) :
    e.cursor.index = none ∨ ∃ d i d', e.player.document = some d ∧ e.cursor.index = some i ∧
      i < d.size ∧ e.cursor.script = d.name ∧ e.cursor.revision = d.revision ∧
      e.library.get? d.name = some d' ∧ d'.revision = d.revision := by
  have hb := h.current
  cases hi : e.cursor.index with
  | none => exact .inl rfl
  | some i =>
    obtain ⟨d, hd⟩ : ∃ d, e.player.document = some d := by
      refine Option.ne_none_iff_exists'.1 fun hnone => ?_
      cases (hb.idle hnone).symm.trans hi
    obtain ⟨hscript, hrevision⟩ := hb.script d hd
    obtain ⟨d', hd', hsame⟩ := hb.held d i hd hi
    exact .inr ⟨d, i, d', hd, rfl, hb.inside d i hd hi, hscript, hrevision, hd', hsame⟩

/-- A way that leads from one script into another one, which is then asked to be read anew from a
text that is no script. The one left behind is replaced by a shorter one. -/
def visit : List Operation :=
  [.loadScript "road" "first\n@goto inn\nlast\n", .loadScript "inn" "second\nthird\n",
    .playFrom "road" 0, .input (.tick 0), .input .goOn, .input (.tick 0),
    .loadScript "inn" "@if", .loadScript "road" "first\n"]

/-- The cursor has come to the second command of the other script, and stays there. -/
theorem current_visit : ∃ e : Engine, e.Reachable ∧ e.cursor.spot? = some ⟨"inn", 1⟩ ∧
    ∃ d d', e.player.document = some d ∧ 1 < d.size ∧ e.cursor.script = d.name ∧
      e.cursor.revision = d.revision ∧ e.library.get? d.name = some d' ∧
      d'.revision = d.revision := by
  have hrun : ((build {} {}).toOption.any fun e =>
      (e.performAll visit).cursor.spot? = some ⟨"inn", 1⟩) = true := by
    decide +kernel
  obtain ⟨e₀, he₀, hspot⟩ := (Option.any_eq_true _ _).1 hrun
  have hspot := of_decide_eq_true hspot
  have hreach : ((e₀.performAll visit).supply (.memory .empty) .empty).Reachable :=
    ((Reachable.build (eq_ok_of_toOption he₀)).performAll visit).supply _ _
  refine ⟨_, hreach, hspot, ?_⟩
  rcases hreach.cursor_current with hnone | ⟨d, i, d', hd, hi, hlt, hscript, hrevision, hget, hsame⟩
  · unfold Cursor.spot? at hspot
    rw [show (e₀.performAll visit).cursor.index = none from hnone] at hspot
    cases hspot
  · unfold Cursor.spot? at hspot
    rw [show (e₀.performAll visit).cursor.index = some i from hi] at hspot
    obtain rfl : i = 1 := congrArg Spot.index (Option.some.inj hspot)
    exact ⟨d, d', hd, hlt, hscript, hrevision, hget, hsame⟩

end Playhead.Engine
