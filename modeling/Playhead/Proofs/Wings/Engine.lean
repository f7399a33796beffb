import Playhead.Proofs.Engine.Operation
import Playhead.Proofs.Services.Engine
import Playhead.Proofs.Wings.Runner

/-!
What the operations of an engine do to its transient scripts and to the scopes that tie them to
playback.
-/

namespace Playhead

/-- The transient scripts, and what ties them to playback. -/
structure Wings where
  runner : TransientRunner
  tether : Tether

namespace Wings

/-- All that one move can do to transient scripts and scopes. -/
inductive Turn (registry : Registry) (w : Wings) : Wings → Prop where
  /-- Playback gets a new scope. -/
  | renew : Turn registry w ⟨w.runner, w.tether.renew⟩
  /-- The scope of playback or that of a run is cancelled. -/
  | cancel (s : CancelScope) (hs : s = w.tether.scope ∨ ∃ r ∈ w.runner.runs, r.scope = s) :
    Turn registry w ⟨w.runner, { w.tether with scopes := w.tether.scopes.cancel s }⟩
  /-- Scopes are opened and cancelled from outside. -/
  | grow {c : Cancellations} (hg : w.tether.scopes.Grows c) (hc : c.Proper) :
    Turn registry w ⟨w.runner, { w.tether with scopes := c }⟩
  /-- A scope below that of playback is opened. -/
  | branch : Turn registry w
    ⟨w.runner, { w.tether with scopes := (w.tether.scopes.child w.tether.scope).2 }⟩
  /-- A script is queued in a scope that was opened. -/
  | start (d : Document) {s : CancelScope} (hs : w.tether.scopes.Knows s) :
    Turn registry w ⟨(w.runner.start d s).2, w.tether⟩
  /-- A script is queued in a new scope below that of playback. -/
  | startBelow (d : Document) : Turn registry w
    ⟨(w.runner.start d (w.tether.scopes.child w.tether.scope).1).2,
      { w.tether with scopes := (w.tether.scopes.child w.tether.scope).2 }⟩
  /-- How a run ended is asked for. -/
  | take (h : TransientHandle) : Turn registry w ⟨(w.runner.takeStatus h).2, w.tether⟩
  /-- Runs in cancelled scopes end. -/
  | reap (s : Scene) : Turn registry w ⟨(w.runner.reapCancelled w.tether.scopes s).1, w.tether⟩
  /-- Every run has its turn. -/
  | tick (s : Scene) (delta : Nanoseconds) (budget : Nat) : Turn registry w
    ⟨(w.runner.tick registry w.tether.scopes s delta budget).1, w.tether⟩

def Turns (registry : Registry) : Wings → Wings → Prop :=
  Relation.ReflTransGen (Turn registry)

variable {registry : Registry} {w v : Wings}

theorem turns_of_renews {t u : Tether} (h : t.Renews u) (r : TransientRunner) :
    Turns registry ⟨r, t⟩ ⟨r, u⟩ := by
  obtain ⟨n, rfl⟩ := h
  induction n generalizing t with
  | zero => exact .refl
  | succ n ih => exact .head .renew (ih (t := t.renew))

/-- Scopes are numbered in the order in which they were opened; that of playback is below no other;
runs are of built-in commands, in scopes that were opened, and numbered. -/
structure Regular (w : Wings) : Prop where
  proper : w.tether.scopes.Proper
  root : w.tether.scope.above = []
  known : w.tether.scopes.Knows w.tether.scope
  runs : ∀ r ∈ w.runner.runs, r.Native ∧ w.tether.scopes.Knows r.scope
  numbered : w.runner.Numbered

theorem Regular.grows (hw : w.Regular) {c : Cancellations} (hg : w.tether.scopes.Grows c)
    (hc : c.Proper) : (⟨w.runner, { w.tether with scopes := c }⟩ : Wings).Regular :=
  ⟨hc, hw.root, hw.known.grows hg, fun r hr => ⟨(hw.runs r hr).1, (hw.runs r hr).2.grows hg⟩,
    hw.numbered⟩

theorem Regular.child (hw : w.Regular) :
    (w.tether.scopes.child w.tether.scope).2.Proper ∧
      (w.tether.scopes.child w.tether.scope).2.Knows (w.tether.scopes.child w.tether.scope).1 := by
  refine ⟨fun n hn => Nat.lt_succ_of_lt (hw.proper n hn), fun n hn => ?_⟩
  rcases List.mem_cons.1 hn with rfl | hn
  · exact Nat.lt_succ_self _
  · exact Nat.lt_succ_of_lt (hw.known n hn)

theorem Regular.visit (hw : w.Regular)
    {turn : TransientRun → Scene → TransientRun × Scene × Option TransientStatus}
    (hturn : ∀ r s, r.Native → r.Same (turn r s).1 ∧ (turn r s).1.Native)
    (hhandle : ∀ r s, (turn r s).1.handle = r.handle) (s : Scene) :
    (⟨(w.runner.visitAll turn s).1, w.tether⟩ : Wings).Regular := by
  obtain ⟨hruns, -⟩ := TransientRunner.visitAll_keeps
    (K := fun r => r.Native ∧ w.tether.scopes.Knows r.scope) (P := fun _ => True) (s := s)
    (fun r s hr _ => by
      obtain ⟨hsame, hnative⟩ := hturn r s hr.1
      exact ⟨⟨hnative, hsame.2.1 ▸ hr.2⟩, trivial⟩)
    (fun _ _ _ _ => trivial) hw.runs trivial
  exact ⟨hw.proper, hw.root, hw.known, hruns,
    TransientRunner.visit_numbered hhandle s hw.numbered⟩

theorem Regular.turn (hw : w.Regular) (hreg : registry.Starts fun t => ¬t.IsHost)
    (h : Turn registry w v) : v.Regular := by
  cases h with
  | renew =>
    exact ⟨hw.proper.root, rfl, w.tether.scopes.knows_root, fun r hr => ⟨(hw.runs r hr).1,
      (hw.runs r hr).2.grows w.tether.scopes.grows_root⟩, hw.numbered⟩
  | cancel s hs =>
    have hknown : w.tether.scopes.Knows s := by
      rcases hs with rfl | ⟨r, hr, rfl⟩
      · exact hw.known
      · exact (hw.runs r hr).2
    exact hw.grows (w.tether.scopes.grows_cancel s) (hw.proper.cancel hknown)
  | grow hg hc => exact hw.grows hg hc
  | branch => exact hw.grows (w.tether.scopes.grows_child _) hw.child.1
  | start d hs =>
    refine ⟨hw.proper, hw.root, hw.known, fun r hr => ?_, hw.numbered.start d _⟩
    rcases List.mem_append.1 hr with hr | hr
    · exact hw.runs r hr
    · cases List.mem_singleton.1 hr
      exact ⟨TransientRun.holds_idle rfl, hs⟩
  | startBelow d =>
    have hgrown := hw.grows (w.tether.scopes.grows_child _) hw.child.1
    refine ⟨hgrown.proper, hw.root, hgrown.known, fun r hr => ?_, hw.numbered.start d _⟩
    rcases List.mem_append.1 hr with hr | hr
    · exact hgrown.runs r hr
    · cases List.mem_singleton.1 hr
      exact ⟨TransientRun.holds_idle rfl, hw.child.2⟩
  | take h =>
    have hruns : (w.runner.takeStatus h).2.runs = w.runner.runs := by
      unfold TransientRunner.takeStatus
      split <;> rfl
    exact ⟨hw.proper, hw.root, hw.known, fun r hr => hw.runs r (hruns ▸ hr),
      hw.numbered.takeStatus h⟩
  | reap s =>
    refine hw.visit (fun r s hr => ⟨TransientRunner.reap_same _ r s, ?_⟩)
      (fun r s => (TransientRunner.reap_same _ r s).1) s
    show (TransientRunner.reap w.tether.scopes r s).1.Native
    unfold TransientRunner.reap
    split
    · exact TransientRun.holds_idle rfl
    · exact hr
  | tick s delta budget =>
    have hP : ∀ t u : Task, t.Stems u → ¬t.IsHost → ¬u.IsHost :=
      fun _ _ h ht => Task.not_isHost_of_stems ht h
    refine hw.visit (fun r s hr => TransientRun.advance_holds hreg hP hr _ s delta budget)
      (fun r s => ?_) s
    exact (TransientRun.advance_same registry _ r s delta budget).1

theorem Regular.turns (hw : w.Regular) (hreg : registry.Starts fun t => ¬t.IsHost)
    (h : Turns registry w v) : v.Regular := by
  induction h with
  | refl => exact hw
  | tail _ h ih => exact ih.turn hreg h

end Wings

namespace Engine

def wings (e : Engine) : Wings :=
  ⟨e.transients, e.playback.tether⟩

/-- An engine gets from one state to another by turns of its transient scripts and scopes. -/
structure Stirs (e e' : Engine) : Prop where
  turns : Wings.Turns e.registry e.wings e'.wings
  registry : e'.registry = e.registry

variable {e e' e'' : Engine}

theorem Stirs.refl (e : Engine) : Stirs e e :=
  ⟨.refl, rfl⟩

theorem Stirs.trans (h : Stirs e e') (h' : Stirs e' e'') : Stirs e e'' :=
  ⟨h.turns.trans (h.registry ▸ h'.turns), h'.registry.trans h.registry⟩

theorem Stirs.of_eq (h : e'.wings = e.wings) (hr : e'.registry = e.registry) : Stirs e e' := by
  refine ⟨?_, hr⟩
  rw [h]
  exact .refl

theorem Stirs.one (h : Wings.Turn e.registry e.wings e'.wings) (hr : e'.registry = e.registry) :
    Stirs e e' :=
  ⟨.single h, hr⟩

/-- A move of playback that leaves the scopes leaves transient scripts, too. -/
theorem Stirs.of_playback {p : Playback} (h : p.tether = e.playback.tether) :
    Stirs e { e with playback := p } :=
  .of_eq (congrArg (Wings.mk e.transients) h) rfl

theorem Stirs.of_renews {p : Playback} (h : e.playback.tether.Renews p.tether) :
    Stirs e { e with playback := p } :=
  ⟨Wings.turns_of_renews h e.transients, rfl⟩

theorem emit_stirs (e : Engine) (event : Event) : Stirs e (e.emit event) :=
  .of_eq rfl rfl

theorem reapCancelled_stirs (e : Engine) : Stirs e e.reapCancelled :=
  .one (.reap e.playback.scene) rfl

theorem wings_cancelActive (e : Engine) :
    (e.onPlayback Playback.cancelActive).wings = e.wings :=
  congrArg (Wings.mk e.transients) e.playback.tether_cancelActive

theorem cancelPlaybackScope_stirs (e : Engine) : Stirs e e.cancelPlaybackScope := by
  obtain ⟨u, hu⟩ : ∃ u, u = e.onPlayback Playback.cancelActive := ⟨_, rfl⟩
  have hdrop : Stirs e u := by
    rw [hu]
    exact .of_eq e.wings_cancelActive rfl
  have hcancel : Stirs u (u.withScopes (u.playback.scopes.cancel u.player.scope)) :=
    .one (.cancel (w := u.wings) u.player.scope (.inl rfl)) rfl
  refine hdrop.trans (hcancel.trans ((reapCancelled_stirs _).trans ?_))
  rw [hu]
  exact .one .renew rfl

theorem withLibrary_stirs (e : Engine) (k : ScriptLibrary) : Stirs e (e.withLibrary k) :=
  .of_eq rfl rfl

theorem loadDocument_stirs (e : Engine) (name : String) : Stirs e (e.loadDocument name).1 := by
  obtain ⟨k, hk⟩ := e.loadDocument_withLibrary name
  exact hk ▸ e.withLibrary_stirs k

theorem beginPlayback_stirs (e : Engine) (d : Document) (index : Nat) :
    Stirs e (e.beginPlayback d index) :=
  e.cancelPlaybackScope_stirs.trans
    (.of_playback (e.cancelPlaybackScope.clearRollback.playback.tether_start d index))

theorem ReadsAhead.stirs {u : Engine} (h : e.ReadsAhead u) : Stirs e u := by
  induction h with
  | refl => exact .refl e
  | load _ name ih => exact ih.trans (loadDocument_stirs _ name)
  | progress _ script loaded total ih => exact ih.trans (emit_stirs _ _)
  | fault _ message ih => exact ih.trans (emit_stirs _ _)

theorem StartsScript.stirs {r : Engine × Except EngineError Unit} (h : e.StartsScript r) :
    Stirs e r.1 := by
  cases h with
  | fails h err => exact h.stirs
  | @begins script v u d hload h index =>
    have hread := e.loadDocument_stirs script
    rw [hload] at hread
    exact (hread.trans h.stirs).trans (u.beginPlayback_stirs d index)

theorem stop_stirs (e : Engine) : Stirs e e.stop := by
  have hcancel := e.cancelPlaybackScope_stirs
  unfold stop
  split
  · exact .refl e
  · dsimp only
    split
    · exact hcancel.trans (.of_eq rfl rfl)
    · exact hcancel.trans (.of_playback (e.cancelPlaybackScope.playback.tether_stop .requested))

theorem tick_stirs (e : Engine) (delta : Nanoseconds) : Stirs e (e.tick delta).1 := by
  obtain ⟨u, hu⟩ : ∃ u : Engine, u = { e with playback := (e.playback.tick e.env delta).1 } :=
    ⟨_, rfl⟩
  have hplay : Stirs e u := by
    rw [hu]
    exact .of_renews (e.playback.renews_tick e.env delta)
  have hreap := hplay.trans u.reapCancelled_stirs
  refine hreap.trans ?_
  rw [hu]
  exact .one (.tick _ delta e.config.player.maxCommands) rfl

theorem resume_stirs (e : Engine) : Stirs e e.resume.1 :=
  .of_playback (Playback.Stays.resume e.playback).tether

theorem playTransient_stirs {scope : CancelScope} (hs : e.playback.scopes.Knows scope)
    (name text : String) : Stirs e (e.playTransient name text scope).1 := by
  unfold playTransient
  split
  · exact .refl e
  · rename_i d hd
    exact .one (.start (w := e.wings) d hs) rfl

theorem cancelTransients_stirs (e : Engine) : Stirs e e.cancelTransients := by
  have hcancel : ∀ (l : List TransientRun), (∀ r ∈ l, r ∈ e.transients.runs) →
      ∀ c, Wings.Turns e.registry ⟨e.transients, ⟨c, e.player.scope⟩⟩
        ⟨e.transients, ⟨l.foldl (fun c r => c.cancel r.scope) c, e.player.scope⟩⟩ := by
    intro l hl
    induction l with
    | nil => exact fun _ => .refl
    | cons r rest ih =>
      intro c
      refine .head (.cancel r.scope (.inr ⟨r, hl r List.mem_cons_self, rfl⟩)) ?_
      exact ih (fun k hk => hl k (List.mem_cons_of_mem _ hk)) (c.cancel r.scope)
  obtain ⟨c, hc⟩ : ∃ c, c = e.transients.runs.foldl (fun c r => c.cancel r.scope)
    e.playback.scopes := ⟨_, rfl⟩
  have hfirst : Stirs e (e.withScopes c) := by
    rw [hc]
    exact ⟨hcancel e.transients.runs (fun _ hr => hr) e.playback.scopes, rfl⟩
  refine hfirst.trans ?_
  rw [hc]
  exact .one (.reap e.playback.scene) rfl

theorem Chooses.stirs {u : Engine} (h : e.Chooses u) : Stirs e u := by
  induction h with
  | refl => exact .refl e
  | read _ k ih => exact ih.trans (withLibrary_stirs _ k)
  | fault _ message ih => exact ih.trans (emit_stirs _ _)
  | clear _ ih | assign _ v hvars ih => exact ih.trans (.of_playback rfl)
  | @branch u _ ih => exact ih.trans (.one (.branch (w := u.wings)) rfl)
  | @startBelow u _ d ih => exact ih.trans (.one (.startBelow (w := u.wings) d) rfl)
  | stop _ reason ih => exact ih.trans (.of_playback (Playback.tether_stop _ reason))

theorem continueInput_stirs (e : Engine) : Stirs e e.continueInput :=
  .of_playback (Playback.Stays.continueInput e.playback).tether

theorem Selects.stirs {u : Engine} (h : e.Selects u) : Stirs e u := by
  cases h with
  | within h => exact h.stirs
  | @jumps u h d next =>
    exact h.stirs.trans (.of_playback (u.playback.tether_moveTo d next .endOfScript))
  | goesOn h => exact h.stirs.trans (continueInput_stirs _)

theorem restoreSnapshot_stirs (e : Engine) (position : Nat) (x : Snapshot) (d : Document) :
    Stirs e (e.restoreSnapshot position x d).1 := by
  obtain ⟨u, hu⟩ : ∃ u, u = ((e.emit (.rollbackStarted e.cursor.spot? x.spot)).cancelPlaybackScope
      ).onPlayback (·.setSynchronizing true) := ⟨_, rfl⟩
  have hcancel : Stirs e u := by
    rw [hu]
    exact ((emit_stirs e _).trans (e.emit _).cancelPlaybackScope_stirs).trans (.of_eq rfl rfl)
  unfold restoreSnapshot
  dsimp only
  rw [← hu]
  generalize StateManager.restore u.services x = r
  obtain ⟨s, err | _⟩ := r
  · exact hcancel.trans (.of_playback (Playback.tether_stop _ _))
  · exact hcancel.trans (.of_playback (Playback.tether_restorePosition _ _ _ _ _))

theorem RollsBack.stirs {found : Except Unavailable Nat}
    {r : Engine × Except EngineError RollbackOutcome} (h : e.RollsBack found r) : Stirs e r.1 := by
  cases h with
  | unavailable k why => exact e.withLibrary_stirs k
  | unread hfound hx why => exact .refl e
  | @restore position x k d hfound hx hload hrevision hindex =>
    exact (e.withLibrary_stirs k).trans (restoreSnapshot_stirs _ position x d)

theorem playForward_stirs (e : Engine) (index : Nat) : Stirs e (e.playForward index).1 :=
  .of_renews (e.playback.renews_fastForward e.env index)

theorem RewindsWithin.stirs {u : Engine} (h : e.RewindsWithin u) : Stirs e u := by
  cases h with
  | stays => exact .refl e
  | forward index => exact e.playForward_stirs index
  | back position => exact (e.rollsBack_position position).stirs
  | backAndForward position index =>
    exact (e.rollsBack_position position).stirs.trans (playForward_stirs _ index)

theorem restoreCheckpoint_stirs (e : Engine) (c : RewindCheckpoint) :
    Stirs e (e.restoreCheckpoint c).1 := by
  have hplayer : ∀ p : Playback, (restorePlayer p c).tether = p.tether := by
    intro p
    unfold restorePlayer
    dsimp only
    rw [(Playback.Stays.setSkip _ _).tether]
    exact p.tether_cancelActive
  unfold restoreCheckpoint
  dsimp only
  generalize c.game.apply .game _ = x
  obtain ⟨s, err | _⟩ := x
  · exact .of_playback (Playback.tether_stop _ _)
  · dsimp only
    generalize c.global.apply .global s = x
    obtain ⟨t, err | _⟩ := x
    · exact .of_playback (Playback.tether_stop _ _)
    · exact .of_playback (hplayer _)

theorem Rewinds.stirs {u : Engine} (h : e.Rewinds u) : Stirs e u := by
  cases h with
  | within h => exact h.stirs
  | undone h hc => exact h.stirs.trans (restoreCheckpoint_stirs _ _)

theorem saveGame_stirs (e : Engine) (slot : String) : Stirs e (e.saveGame slot).1 := by
  unfold saveGame
  split
  · exact .refl e
  · split <;> exact .of_eq rfl rfl

theorem saveScope_stirs (e : Engine) (scope : StateScope) (slot : String) :
    Stirs e (e.saveScope scope slot).1 := by
  unfold saveScope
  split <;> exact .of_eq rfl rfl

theorem loadScope_stirs (e : Engine) (scope : StateScope) (slot : String) :
    Stirs e (e.loadScope scope slot).1 := by
  unfold loadScope
  split
  · exact .refl e
  · exact .refl e
  · split <;> exact .of_eq rfl rfl


theorem loadGame_stirs (e : Engine) (slot : String) : Stirs e (e.loadGame slot).1 := by
  obtain ⟨k, hk⟩ := e.readGame_library slot
  have hread : Stirs e (e.readGame slot).1 := hk ▸ e.withLibrary_stirs k
  unfold loadGame
  generalize e.readGame slot = r at hread ⊢
  obtain ⟨u, err | ⟨save, record, d⟩⟩ := r
  · exact hread
  · have hcancel := hread.trans u.cancelPlaybackScope_stirs
    dsimp only at hcancel ⊢
    generalize u.cancelPlaybackScope = v at hcancel ⊢
    generalize v.playback.manager.load v.services .game save.records = r
    obtain ⟨m, s, err | _⟩ := r
    · exact hcancel.trans (.of_eq rfl rfl)
    · exact hcancel.trans (.of_playback (Playback.tether_restorePosition _ _ _ _ _))

theorem scriptReplaced_stirs (e : Engine) (d : Document) : Stirs e (e.scriptReplaced d) := by
  unfold scriptReplaced
  dsimp only
  split
  · exact e.cancelPlaybackScope_stirs.trans (.of_playback (Playback.tether_stop _ _))
  · exact .refl e

theorem replaceScript_stirs (e : Engine)
    (read : Except LibraryError (Document × ScriptLibrary)) :
    Stirs e (e.replaceScript read).1 := by
  unfold replaceScript
  split
  · exact .refl e
  · rename_i d library
    exact (e.withLibrary_stirs library).trans (scriptReplaced_stirs _ d)

end Engine

/-- Whether the host opens scopes before it uses them and revives none. -/
def Operation.Proper (e : Engine) : Operation → Prop
  | .playTransient _ _ scope => e.playback.scopes.Knows scope
  | .setScopes c => e.playback.scopes.Grows c ∧ c.Proper
  | _ => True

instance (e : Engine) (op : Operation) : Decidable (op.Proper e) :=
  match op with
  | .playTransient _ _ scope => inferInstanceAs (Decidable (e.playback.scopes.Knows scope))
  | .setScopes c => inferInstanceAs (Decidable (e.playback.scopes.Grows c ∧ c.Proper))
  | .input _ | .playFrom _ _ | .playStart | .playLabel _ _ | .preload _ | .stop | .takeStatus _
  | .cancelTransients | .resetState | .setDepth _ | .rollback _ | .rollbackWhere _
  | .allowRollback _ | .rewind _ | .save _ | .load _ | .quickSave | .quickLoad | .delete _
  | .saveGlobal | .loadGlobal | .saveSettings | .loadSettings | .loadScript _ _
  | .reloadScript _ | .write _ | .drain => .isTrue trivial

namespace Engine

variable {e : Engine} {op : Operation}

theorem perform_stirs (h : op.Proper e) : Stirs e (e.perform op) := by
  cases op with
  | input i =>
    cases i with
    | tick delta => exact e.tick_stirs delta
    | goOn => exact e.continueInput_stirs
    | cancel =>
      exact .of_playback ((Playback.Stays.setAutoPlay _ false).tether.trans
        (Playback.Stays.setSkip e.playback false).tether)
    | skip on => exact .of_playback (Playback.Stays.setSkip e.playback on).tether
    | auto on => exact .of_playback (Playback.Stays.setAutoPlay e.playback on).tether
    | resume => exact e.resume_stirs
    | select index => exact (e.selects index).stirs
  | playFrom script index => exact (e.startsScript_playFrom script index).stirs
  | playStart => exact e.startsScript_playStartScript.stirs
  | playLabel script label => exact (e.startsScript_playFromLabel script label).stirs
  | preload script => exact (e.startsScript_preloadAndPlay script).stirs
  | stop => exact e.stop_stirs
  | playTransient name text scope => exact playTransient_stirs h name text
  | takeStatus handle => exact .one (.take (w := e.wings) handle) rfl
  | cancelTransients => exact e.cancelTransients_stirs
  | rollback target => exact (e.rollsBack _).stirs
  | rollbackWhere p => exact (e.rollsBack _).stirs
  | rewind target => exact (e.rewinds target).stirs
  | save slot => exact e.saveGame_stirs slot
  | load slot => exact e.loadGame_stirs slot
  | quickSave => exact e.saveGame_stirs _
  | quickLoad => exact e.loadGame_stirs _
  | saveGlobal => exact e.saveScope_stirs _ _
  | loadGlobal => exact e.loadScope_stirs _ _
  | saveSettings => exact e.saveScope_stirs _ _
  | loadSettings => exact e.loadScope_stirs _ _
  | loadScript name text => exact e.replaceScript_stirs _
  | reloadScript name => exact e.replaceScript_stirs _
  | setScopes c => exact .one (.grow (w := e.wings) h.1 h.2) rfl
  | _ => exact .of_eq rfl rfl

/-- The states that come about with the built-in commands alone. -/
inductive Unaided : Engine → Prop where
  | build {config : Config} {parts : EngineParts} {e : Engine} (h : build config parts = .ok e)
    (hcommands : parts.commands = []) (hscopes : parts.scopes.Proper) : Unaided e
  | perform {e : Engine} {op : Operation} (h : Unaided e) (hop : op.Proper e) :
    Unaided (e.perform op)
  | supply {e : Engine} (h : Unaided e) (resources : Resources) (files : FileTree) :
    Unaided (e.supply resources files)

/-- Whether each operation of a list is proper when it is its turn. -/
def ProperAll : Engine → List Operation → Prop
  | _, [] => True
  | e, op :: rest => op.Proper e ∧ ProperAll (e.perform op) rest

instance decidableProperAll : (e : Engine) → (l : List Operation) → Decidable (e.ProperAll l)
  | _, [] => .isTrue trivial
  | e, op :: rest =>
    have := decidableProperAll (e.perform op) rest
    inferInstanceAs (Decidable (op.Proper e ∧ (e.perform op).ProperAll rest))

theorem Unaided.performAll (h : e.Unaided) {l : List Operation} (hl : e.ProperAll l) :
    (e.performAll l).Unaided := by
  induction l generalizing e with
  | nil => exact h
  | cons op rest ih => exact ih (h.perform hl.1) hl.2

theorem Unaided.reachable (h : e.Unaided) : e.Reachable := by
  induction h with
  | build h => exact .build h
  | perform _ _ ih => exact .perform ih _
  | supply _ resources files ih => exact .supply ih resources files

theorem Unaided.regular (h : e.Unaided) :
    e.registry.Starts (fun t => ¬t.IsHost) ∧ e.wings.Regular := by
  induction h with
  | @build config parts e h hcommands hscopes =>
    refine ⟨starts_build h (fun _ ht => ht) fun k hk => ?_, ?_⟩
    · rw [hcommands] at hk
      cases hk
    · obtain ⟨registry, services, -, -, -, rfl⟩ := build_eq_ok h
      refine ⟨hscopes.root, rfl, parts.scopes.knows_root, fun r hr => ?_, ⟨.nil, ?_, ?_, .nil⟩⟩
      · cases hr
      · exact fun r hr => by cases hr
      · exact fun f hf => by cases hf
  | perform h hop ih =>
    have hstirs := perform_stirs hop
    exact ⟨hstirs.registry ▸ ih.1, ih.2.turns ih.1 hstirs.turns⟩
  | supply h resources files ih => exact ih

theorem Unaided.active (h : e.Unaided) {a : ActiveCommand} (ha : e.player.active = some a) :
    ¬a.task.IsHost := by
  obtain ⟨-, hactive⟩ := h.reachable.keeps
    (I := fun registry b => registry.Starts (fun t => ¬t.IsHost) →
      ∀ a, b.active = some a → ¬a.task.IsHost)
    (fun e he _ a ha => by rw [he.active] at ha; cases ha)
    (fun registry b c hturn hb hreg => Bearings.Turns.starts (.one hturn) hreg
      (fun _ _ h ht => Task.not_isHost_of_stems ht h) (hb hreg))
  exact hactive h.regular.1 a ha

end Engine

end Playhead
