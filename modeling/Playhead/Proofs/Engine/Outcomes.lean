import Playhead.Engine.Choice
import Playhead.Engine.Rewind
import Playhead.Engine.Saving
import Playhead.Proofs.Except
import Playhead.Proofs.Standing.Shelf

/-!
All that can become of a start of a script, of a selection, of a rollback and of a rewind.
-/

namespace Playhead.Engine

/-- The same engine with other scripts read. -/
def withLibrary (e : Engine) (k : ScriptLibrary) : Engine :=
  { e with playback := { e.playback with library := k } }

theorem loadDocument_withLibrary (e : Engine) (name : String) :
    ∃ k, (e.loadDocument name).1 = e.withLibrary k := by
  unfold loadDocument
  split
  · exact ⟨_, rfl⟩
  · exact ⟨e.library, rfl⟩

/-- Reading a game may read a script and changes nothing else. -/
theorem readGame_library (e : Engine) (slot : String) :
    ∃ k, (e.readGame slot).1 = e.withLibrary k := by
  unfold readGame
  dsimp only
  split
  · exact ⟨e.library, rfl⟩
  · rename_i record _
    obtain ⟨k, hk⟩ := e.loadDocument_withLibrary record.spot.script
    generalize e.loadDocument record.spot.script = r at hk ⊢
    obtain ⟨u, err | d⟩ := r
    · exact ⟨k, hk⟩
    · dsimp only
      split <;> exact ⟨k, hk⟩

/-- A script that cannot be read leaves the engine as it is. -/
theorem eq_of_loadDocument_error {e f : Engine} {name : String} {err : EngineError}
    (h : e.loadDocument name = (f, .error err)) : f = e ∧ ∃ why, err = .jump (.library why) := by
  unfold loadDocument at h
  split at h
  · cases h
  · rename_i why _
    cases h
    exact ⟨rfl, why, rfl⟩

/-- Reading ahead: scripts are looked up, and what comes of it is told. -/
inductive ReadsAhead (e : Engine) : Engine → Prop where
  | refl : ReadsAhead e e
  | load {u : Engine} (h : ReadsAhead e u) (name : String) : ReadsAhead e (u.loadDocument name).1
  | progress {u : Engine} (h : ReadsAhead e u) (script : String) (loaded total : Nat) :
      ReadsAhead e (u.emit (.preloadProgress script loaded total))
  | fault {u : Engine} (h : ReadsAhead e u) (message : String) :
      ReadsAhead e (u.emit (.fault none message))

theorem ReadsAhead.trans {e u v : Engine} (h : e.ReadsAhead u) (h' : u.ReadsAhead v) :
    e.ReadsAhead v := by
  induction h' with
  | refl => exact h
  | load _ name ih => exact ih.load name
  | progress _ script loaded total ih => exact ih.progress script loaded total
  | fault _ message ih => exact ih.fault message

theorem ReadsAhead.preloadResources {e u : Engine} (h : e.ReadsAhead u) (script : String)
    (total loaded : Nat) (paths : List String) :
    e.ReadsAhead (preloadResources script total u loaded paths).1 := by
  induction paths generalizing u loaded with
  | nil => exact h
  | cons path rest ih =>
    unfold Engine.preloadResources
    dsimp only
    split
    · exact ih (h.progress ..) _
    · exact ih ((h.fault _).progress ..) _

theorem ReadsAhead.preloadScripts {e u : Engine} (h : e.ReadsAhead u) (script : String)
    (total loaded : Nat) (names : List String) :
    e.ReadsAhead (preloadScripts script total u loaded names).1 := by
  induction names generalizing u loaded with
  | nil => exact h
  | cons name rest ih =>
    have hload := h.load name
    unfold Engine.preloadScripts
    generalize u.loadDocument name = r at hload ⊢
    obtain ⟨v, found⟩ := r
    dsimp only at hload ⊢
    split
    · rename_i hread
      cases hread
      exact hload
    · rename_i hread
      cases hread
      cases found with
      | ok d => exact ih (hload.progress ..) _
      | error err => exact ih ((hload.fault _).progress ..) _

/-- Something that is looked up ahead ends the start, or a script that was read begins. -/
inductive StartsScript (e : Engine) : Engine × Except EngineError Unit → Prop where
  | fails {u : Engine} (h : e.ReadsAhead u) (err : EngineError) : StartsScript e (u, .error err)
  | begins {script : String} {v u : Engine} {d : Document}
      (hload : e.loadDocument script = (v, .ok d)) (h : v.ReadsAhead u) (index : Nat) :
      StartsScript e (u.beginPlayback d index, .ok ())

theorem startsScript_playFrom (e : Engine) (script : String) (index : Nat) :
    e.StartsScript (e.playFrom script index) := by
  have hread := ReadsAhead.refl.load (e := e) script
  unfold playFrom
  cases hload : e.loadDocument script with
  | mk u found =>
    rw [hload] at hread
    cases found with
    | error err => exact .fails hread err
    | ok d =>
      dsimp only
      split
      · exact .fails hread _
      · exact .begins hload .refl index

theorem startsScript_playStartScript (e : Engine) : e.StartsScript e.playStartScript := by
  unfold playStartScript
  split
  · exact e.startsScript_playFrom _ 0
  · exact .fails .refl _

theorem startsScript_playFromLabel (e : Engine) (script label : String) :
    e.StartsScript (e.playFromLabel script label) := by
  have hread := ReadsAhead.refl.load (e := e) script
  unfold playFromLabel
  cases hload : e.loadDocument script with
  | mk u found =>
    rw [hload] at hread
    cases found with
    | error err => exact .fails hread err
    | ok d =>
      dsimp only
      split
      · exact .begins hload .refl _
      · exact .fails hread _

theorem startsScript_preloadAndPlay (e : Engine) (script : String) :
    e.StartsScript (e.preloadAndPlay script) := by
  have hread := ReadsAhead.refl.load (e := e) script
  unfold preloadAndPlay
  cases hload : e.loadDocument script with
  | mk u found =>
    rw [hload] at hread
    cases found with
    | error err => exact .fails hread err
    | ok d =>
      dsimp only
      generalize (resourcesOf u.registry d).length + (scriptsOf u.registry d).length = total
      have hresources : u.ReadsAhead (preloadResources script total
          (u.emit (.preloadProgress script 0 total)) 0 (resourcesOf u.registry d)).1 :=
        (ReadsAhead.refl.progress ..).preloadResources ..
      generalize preloadResources script total _ 0 (resourcesOf u.registry d) = r at hresources ⊢
      obtain ⟨v, loaded⟩ := r
      have hscripts := hresources.preloadScripts script total loaded (scriptsOf u.registry d)
      dsimp only at hscripts ⊢
      generalize preloadScripts script total v loaded (scriptsOf u.registry d) = r at hscripts ⊢
      obtain ⟨x, err | done⟩ := r
      · exact .fails (hread.trans hscripts) err
      · exact .begins hload hscripts 0

/-- What a selection does before playback goes on: scripts are read and faults told, the options are
dropped, variables are assigned, a script is started below the scope of playback, and playback stops
where the option leads nowhere. -/
inductive Chooses (e : Engine) : Engine → Prop where
  | refl : Chooses e e
  | read {u : Engine} (h : Chooses e u) (k : ScriptLibrary) : Chooses e (u.withLibrary k)
  | fault {u : Engine} (h : Chooses e u) (message : String) :
      Chooses e (u.emit (.fault none message))
  | clear {u : Engine} (h : Chooses e u) : Chooses e (u.withServices
      { u.services with choices := u.services.choices.map fun _ => .empty })
  | assign {u : Engine} {vars : VariableStore} (h : Chooses e u) (v : VariableStore)
      (hvars : u.services.variableStore = some vars) :
      Chooses e (u.withServices { u.services with variableStore := some v })
  | branch {u : Engine} (h : Chooses e u) :
      Chooses e (u.withScopes (u.playback.scopes.child u.player.scope).2)
  | startBelow {u : Engine} (h : Chooses e u) (d : Document) :
      Chooses e { u.withScopes (u.playback.scopes.child u.player.scope).2 with
        transients := (u.transients.start d (u.playback.scopes.child u.player.scope).1).2 }
  | stop {u : Engine} (h : Chooses e u) (reason : StopReason) :
      Chooses e (u.onPlayback (·.stop reason))

namespace Chooses

variable {e u : Engine}

theorem choiceDestination (h : e.Chooses u) (index : Nat) (goto : Option String) :
    e.Chooses (u.choiceDestination index goto).1 := by
  unfold Engine.choiceDestination
  split
  · exact h
  · split
    · exact h.fault _
    · rename_i target _
      obtain ⟨k, -, hk⟩ := Playback.resolveJump_library u.env u.playback target
      generalize u.playback.resolveJump u.env target = r at hk ⊢
      obtain ⟨p, err | destination⟩ := r
      · obtain rfl : p = { u.playback with library := k } := hk
        exact (h.read k).clear.stop _
      · obtain rfl : p = { u.playback with library := k } := hk
        exact h.read k

theorem applyChoiceSet (h : e.Chooses u) (o : ChoiceOption) : e.Chooses (u.applyChoiceSet o) := by
  unfold Engine.applyChoiceSet
  split
  · exact h
  · dsimp only
    split
    · rename_i s hs
      obtain ⟨assignments, -, hs⟩ := exists_of_bind_ok hs
      cases hv : u.services.variableStore with
      | none =>
        rw [hv] at hs
        cases hs
        exact h
      | some vars =>
        rw [hv] at hs
        obtain ⟨v, -, hs⟩ := exists_of_bind_ok hs
        cases hs
        exact h.assign v hv
    · exact h.fault _

theorem startChoiceScript (h : e.Chooses u) (o : ChoiceOption) :
    e.Chooses (u.startChoiceScript o).1 := by
  unfold Engine.startChoiceScript
  split
  · exact h
  · rename_i text _
    unfold playTransient
    dsimp only
    cases Document.parse (u.withScopes (u.playback.scopes.child u.player.scope).2).registry
        (u.withScopes (u.playback.scopes.child u.player.scope).2).library.waitByDefault
        "choice" text with
    | error err => exact h.branch
    | ok d => exact h.startBelow d

end Chooses

/-- A selection ends early, or playback jumps or goes on. -/
inductive Selects (e : Engine) : Engine → Prop where
  | within {u : Engine} (h : e.Chooses u) : Selects e u
  | jumps {u : Engine} (h : e.Chooses u) (d : Document) (next : Nat) :
      Selects e (u.onPlayback (·.moveTo d next .endOfScript))
  | goesOn {u : Engine} (h : e.Chooses u) : Selects e u.continueInput

theorem selects (e : Engine) (index : Nat) : e.Selects (e.selectChoice index).1 := by
  unfold selectChoice
  split
  · exact .within .refl
  · split
    · exact .within .refl
    · rename_i o _
      have hgoto := Chooses.refl.choiceDestination (e := e) index o.goto
      generalize e.choiceDestination index o.goto = r at hgoto ⊢
      obtain ⟨u, err | destination⟩ := r
      · exact .within hgoto
      · have hscript := (hgoto.clear.applyChoiceSet o).startChoiceScript o
        dsimp only at hscript ⊢
        generalize Engine.startChoiceScript _ o = r at hscript ⊢
        obtain ⟨v, err | _⟩ := r
        · exact .within hscript
        · cases destination with
          | none => exact .goesOn hscript
          | some place => exact .jumps hscript place.1 place.2

/-- There is nothing to go back to, the script of the snapshot cannot be read, or the snapshot is
put back. -/
inductive RollsBack (e : Engine) (found : Except Unavailable Nat) :
    Engine × Except EngineError RollbackOutcome → Prop where
  | unavailable (k : ScriptLibrary) (why : Unavailable) :
      RollsBack e found (e.withLibrary k, .ok (.unavailable why))
  | unread {position : Nat} {x : Snapshot} (hfound : found = .ok position)
      (hx : e.stack.get? position = some x) (why : LibraryError) :
      RollsBack e found (e, .error (.jump (.library why)))
  | restore {position : Nat} {x : Snapshot} {k : ScriptLibrary} {d : Document}
      (hfound : found = .ok position) (hx : e.stack.get? position = some x)
      (hload : e.loadDocument x.spot.script = (e.withLibrary k, .ok d))
      (hrevision : d.revision = x.revision) (hindex : x.spot.index ≤ d.size) :
      RollsBack e found ((e.withLibrary k).restoreSnapshot position x d)

theorem rollsBack_position (e : Engine) (position : Nat) :
    RollsBack e (.ok position) (e.rollbackToPosition position) := by
  unfold rollbackToPosition
  cases hx : e.stack.get? position with
  | none => exact .unavailable e.library _
  | some x =>
    dsimp only
    obtain ⟨k, hk⟩ := e.loadDocument_withLibrary x.spot.script
    cases hload : e.loadDocument x.spot.script with
    | mk f r =>
      rw [hload] at hk
      dsimp only at hk
      subst hk
      cases r with
      | error err =>
        obtain ⟨hf, why, rfl⟩ := eq_of_loadDocument_error hload
        rw [hf]
        exact .unread rfl hx why
      | ok d =>
        dsimp only
        split
        · exact .unavailable k _
        · rename_i hcond
          have hcond : d.revision = x.revision ∧ x.spot.index ≤ d.size := by
            simpa using hcond
          exact .restore rfl hx hload hcond.1 hcond.2

theorem rollsBack (e : Engine) (found : Except Unavailable Nat) :
    RollsBack e found (e.rollbackTo found) := by
  unfold rollbackTo
  split
  · exact .unavailable e.library _
  · cases found with
    | error why => exact .unavailable e.library why
    | ok position => exact e.rollsBack_position position

/-- The records of a snapshot that was not altered can only be refused by a service. -/
theorem restore_error {s t : ServiceSet} {x : Snapshot} {err : StateError}
    (hx : x.verify = .ok ()) (h : StateManager.restore s x = (t, .error err)) :
    ∃ why, err = .service why ∧ x.records.apply .game s = (t, .error why) := by
  unfold StateManager.restore at h
  rw [hx] at h
  dsimp only at h
  split at h
  · cases h
  · rename_i u why happly
    cases h
    exact ⟨why, rfl, happly⟩

/-- A rollback to a snapshot that passes its own check does not find it altered. -/
theorem rollbackTo_ne_altered {e : Engine} (he : ∀ x ∈ e.stack.snapshots, x.verify = .ok ())
    (found : Except Unavailable Nat) (err : SnapshotError) :
    (e.rollbackTo found).2 ≠ .error (.state (.snapshot err)) := by
  have hback := e.rollsBack found
  generalize e.rollbackTo found = r at hback ⊢
  cases hback with
  | unavailable k why => exact nofun
  | unread hfound hx why => exact nofun
  | @restore position x k d hfound hx hload hrevision hindex =>
    have hverify : x.verify = .ok () := he x (List.mem_of_getElem? hx)
    intro h
    unfold restoreSnapshot at h
    dsimp only at h
    split at h
    · rename_i t err' hrestore
      obtain ⟨why, rfl, -⟩ := restore_error hverify hrestore
      cases h
    · cases h

/-- On the way to an index playback runs forward, is rolled back, or is rolled back and then runs
forward. -/
inductive RewindsWithin (e : Engine) : Engine → Prop where
  | stays : RewindsWithin e e
  | forward (index : Nat) : RewindsWithin e (e.playForward index).1
  | back (position : Nat) : RewindsWithin e (e.rollbackToPosition position).1
  | backAndForward (position index : Nat) :
      RewindsWithin e ((e.rollbackToPosition position).1.playForward index).1

theorem rewindsWithin (e : Engine) (d : Document) (current index : Nat) :
    e.RewindsWithin (e.rewindWithin d current index).1 := by
  unfold rewindWithin
  split
  · exact .forward index
  · split
    · exact .stays
    · rename_i position _
      have hback := RewindsWithin.back (e := e) position
      have hforward := RewindsWithin.backAndForward (e := e) position index
      generalize e.rollbackToPosition position = r at hback hforward ⊢
      obtain ⟨u, err | outcome⟩ := r
      · exact hback
      · dsimp only
        split
        · exact hback
        · split
          · exact hback
          · exact hforward

/-- What a rewind did stays or, where it missed its target, is undone. -/
inductive Rewinds (e : Engine) : Engine → Prop where
  | within {u : Engine} (h : e.RewindsWithin u) : Rewinds e u
  | undone {u : Engine} {c : RewindCheckpoint} (h : e.RewindsWithin u)
      (hc : e.rewindCheckpoint = .ok c) : Rewinds e (u.restoreCheckpoint c).1

theorem rewinds_toIndex (e : Engine) (d : Document) (index : Nat) :
    e.Rewinds (e.rewindToIndex d index).1 := by
  unfold rewindToIndex
  dsimp only
  split
  · exact .within .stays
  · cases hc : e.rewindCheckpoint with
    | error err => exact .within .stays
    | ok c =>
      have hwithin := e.rewindsWithin d (e.cursor.index.getD d.size) index
      have hundone := Rewinds.undone hwithin hc
      dsimp only
      generalize e.rewindWithin d (e.cursor.index.getD d.size) index = r at hwithin hundone ⊢
      obtain ⟨u, err | _ | _⟩ := r
      · exact .within hwithin
      · dsimp only at hundone ⊢
        split
        · exact .within hwithin
        · generalize u.restoreCheckpoint c = r at hundone ⊢
          obtain ⟨v, err | _⟩ := r <;> exact hundone
      · exact .within hwithin

theorem rewinds (e : Engine) (target : RewindTarget) : e.Rewinds (e.rewindTo target).1 := by
  unfold rewindTo
  split
  · exact .within .stays
  · split <;> split
    · exact e.rewinds_toIndex _ _
    · exact .within .stays
    · exact e.rewinds_toIndex _ _
    · exact .within .stays

end Playhead.Engine
