import Playhead.Proofs.Engine.Operation
import Playhead.Proofs.Services.Tick
import Playhead.Proofs.State.Takeover
import Playhead.Proofs.Wings.Run

/-!
An engine keeps the same services, whatever the host does but put others in their place.
-/

namespace Playhead

namespace TransientRun

/-- A run whose command in flight leaves the same services. -/
def Tame (r : TransientRun) : Prop :=
  ∀ i t, r.active = some (i, t) → t.Tame

variable {registry : Registry} {σ : ServiceSet} {r : TransientRun}

theorem Tame.abandon (hr : r.Tame) (s : ServiceSet) : (r.abandon s).shape = s.shape := by
  unfold TransientRun.abandon
  split
  · rename_i i t h
    exact (hr i t h _ .refl s).1
  · rfl

/-- Turns leave the same services. -/
theorem kept_tame (hreg : registry.Starts Task.Tame) :
    Kept registry fun r s => r.Tame ∧ s.services.shape = σ :=
  kept_services hreg (fun _ _ hstems ht u hu => ht u (hstems.trans hu))
    (fun t s ht hs => (ht t .refl s).1.trans hs)
    fun t s ctx ht _ hs => ((ht t .refl s).2 ctx).trans hs

end TransientRun

namespace TransientRunner

/-- What every turn of a run keeps, the turns of all runs keep. -/
theorem visit_keeps {K : TransientRun → Prop} {P : Scene → Prop}
    {turn : TransientRun → Scene → TransientRun × Scene × Option TransientStatus}
    (hturn : ∀ r s, K r → P s → K (turn r s).1 ∧ P (turn r s).2.1)
    (hemit : ∀ s h status, P s → P (s.emit (.transientFinished h status)))
    {l : List TransientRun} {t : TransientRunner} {s : Scene} (hl : ∀ r ∈ l, K r)
    (ht : ∀ r ∈ t.runs, K r) (hs : P s) :
    (∀ r ∈ (visit turn l t s).1.runs, K r) ∧ P (visit turn l t s).2 := by
  induction l generalizing t s with
  | nil => exact ⟨ht, hs⟩
  | cons r rest ih =>
    have hone := hturn r s (hl r List.mem_cons_self) hs
    have hrest := fun r h => hl r (List.mem_cons_of_mem _ h)
    unfold visit
    generalize turn r s = x at hone ⊢
    obtain ⟨r', s', _ | status⟩ := x
    · refine ih hrest (fun k hk => ?_) hone.2
      rcases List.mem_append.1 hk with hk | hk
      · exact ht k hk
      · rw [List.mem_singleton.1 hk]
        exact hone.1
    · exact ih hrest ht (hemit _ _ _ hone.2)

theorem visitAll_keeps {K : TransientRun → Prop} {P : Scene → Prop}
    {turn : TransientRun → Scene → TransientRun × Scene × Option TransientStatus}
    (hturn : ∀ r s, K r → P s → K (turn r s).1 ∧ P (turn r s).2.1)
    (hemit : ∀ s h status, P s → P (s.emit (.transientFinished h status)))
    {t : TransientRunner} {s : Scene} (ht : ∀ r ∈ t.runs, K r) (hs : P s) :
    (∀ r ∈ (t.visitAll turn s).1.runs, K r) ∧ P (t.visitAll turn s).2 :=
  visit_keeps hturn hemit ht (fun _ hr => nomatch hr) hs

theorem reapCancelled_keeps {σ : ServiceSet} {t : TransientRunner} {s : Scene}
    (ht : ∀ r ∈ t.runs, r.Tame) (hs : s.services.shape = σ) (c : Cancellations) :
    (∀ r ∈ (t.reapCancelled c s).1.runs, r.Tame) ∧
      (t.reapCancelled c s).2.services.shape = σ := by
  refine visitAll_keeps (P := fun s => s.services.shape = σ) (fun r s hr hs => ?_)
    (fun _ _ _ h => h) ht hs
  split
  · exact ⟨TransientRun.holds_idle rfl, (hr.abandon s.services).trans hs⟩
  · exact ⟨hr, hs⟩

end TransientRunner

/-- Whether an operation leaves services of a shape. Only a write of the host may put others in
their place. -/
def Operation.Keeps (σ : ServiceSet) : Operation → Prop
  | .write s => s.shape = σ
  | _ => True

/-- Whether an operation leaves in the slots what they hold. -/
def Operation.Spares (K : SaveSlots → Prop) (e : Engine) : Operation → Prop
  | .save slot => K (e.saveGame slot).1.saves
  | .quickSave => K e.quickSave.1.saves
  | .delete slot => K (e.deleteGame slot).1.saves
  | .saveGlobal => K e.saveGlobal.1.saves
  | .saveSettings => K e.saveSettings.1.saves
  | _ => True

namespace Engine

/-- An engine over services of a shape, all of whose commands leave them as they are, with slots
that hold what they should. -/
structure Tame (σ : ServiceSet) (K : SaveSlots → Prop) (e : Engine) : Prop where
  registry : e.registry.Starts Task.Tame
  playback : e.playback.Tame σ
  runs : ∀ r ∈ e.transients.runs, r.Tame
  saves : K e.saves

variable {σ : ServiceSet} {K : SaveSlots → Prop} {e : Engine}

theorem Tame.withPlayback (he : e.Tame σ K) {p : Playback} (hp : p.Tame σ) :
    ({ e with playback := p } : Engine).Tame σ K :=
  ⟨he.registry, hp, he.runs, he.saves⟩

theorem Tame.withServices (he : e.Tame σ K) {s : ServiceSet} (hs : s.shape = σ) :
    (e.withServices s).Tame σ K :=
  he.withPlayback ⟨hs, he.playback.active⟩

theorem Tame.reapCancelled (he : e.Tame σ K) : e.reapCancelled.Tame σ K := by
  obtain ⟨hruns, hshape⟩ := TransientRunner.reapCancelled_keeps he.runs he.playback.shape
    e.playback.scopes
  exact ⟨he.registry, ⟨hshape, he.playback.active⟩, hruns, he.saves⟩

theorem Tame.cancelPlaybackScope (he : e.Tame σ K) : e.cancelPlaybackScope.Tame σ K := by
  have hcancel : (e.onPlayback Playback.cancelActive).Tame σ K :=
    he.withPlayback he.playback.cancelActive
  have hscopes : ((e.onPlayback Playback.cancelActive).withScopes
      (((e.onPlayback Playback.cancelActive).playback.scopes).cancel
        (e.onPlayback Playback.cancelActive).player.scope)).Tame σ K :=
    hcancel.withPlayback (hcancel.playback.congr rfl rfl)
  exact hscopes.reapCancelled.withPlayback (hscopes.reapCancelled.playback.congr rfl rfl)

theorem Tame.clearRollback (he : e.Tame σ K) : e.clearRollback.Tame σ K :=
  he.withPlayback (he.playback.congr rfl rfl)

theorem Tame.withLibrary (he : e.Tame σ K) (k : ScriptLibrary) : (e.withLibrary k).Tame σ K :=
  he.withPlayback (he.playback.congr rfl rfl)

theorem Tame.loadDocument (he : e.Tame σ K) (name : String) : (e.loadDocument name).1.Tame σ K := by
  obtain ⟨k, hk⟩ := e.loadDocument_withLibrary name
  exact hk ▸ he.withLibrary k

theorem Tame.beginPlayback (he : e.Tame σ K) (d : Document) (index : Nat) :
    (e.beginPlayback d index).Tame σ K :=
  have hclear := he.cancelPlaybackScope.clearRollback
  hclear.withPlayback (hclear.playback.start d index)

theorem Tame.emit (he : e.Tame σ K) (event : Event) : (e.emit event).Tame σ K :=
  he.withPlayback (he.playback.congr rfl rfl)

theorem ReadsAhead.tame {u : Engine} (he : e.Tame σ K) (h : e.ReadsAhead u) : u.Tame σ K := by
  induction h with
  | refl => exact he
  | load _ name ih => exact ih.loadDocument name
  | progress _ script loaded total ih => exact ih.emit _
  | fault _ message ih => exact ih.emit _

theorem StartsScript.tame {r : Engine × Except EngineError Unit} (he : e.Tame σ K)
    (h : e.StartsScript r) : r.1.Tame σ K := by
  cases h with
  | fails h err => exact h.tame he
  | @begins script v u d hload h index =>
    have hread := he.loadDocument script
    rw [hload] at hread
    exact (h.tame hread).beginPlayback d index

theorem Tame.stop (he : e.Tame σ K) : e.stop.Tame σ K := by
  have hcancel := he.cancelPlaybackScope
  unfold Engine.stop
  split
  · exact he
  · dsimp only
    split
    · exact hcancel.clearRollback
    · exact (hcancel.withPlayback (hcancel.playback.stop _)).clearRollback

theorem Tame.tick (he : e.Tame σ K) (delta : Nanoseconds) : (e.tick delta).1.Tame σ K := by
  have hplay : ({ e with playback := (e.playback.tick e.env delta).1 } : Engine).Tame σ K :=
    he.withPlayback (he.playback.tick he.registry delta)
  have hreap := hplay.reapCancelled
  obtain ⟨u, hu⟩ : ∃ u, u =
      ({ e with playback := (e.playback.tick e.env delta).1 } : Engine).reapCancelled := ⟨_, rfl⟩
  rw [← hu] at hreap
  obtain ⟨hruns, hshape⟩ : (∀ r ∈ (u.transients.tick u.registry u.playback.scopes
      u.playback.scene delta u.config.player.maxCommands).1.runs, r.Tame) ∧
      (u.transients.tick u.registry u.playback.scopes u.playback.scene delta
        u.config.player.maxCommands).2.services.shape = σ := by
    refine TransientRunner.visitAll_keeps (P := fun s => s.services.shape = σ)
      (fun r s hr hs => ?_) (fun _ _ _ h => h) hreap.runs hreap.playback.shape
    exact (TransientRun.kept_tame hreap.registry).advance ⟨hr, hs⟩ _ delta
      u.config.player.maxCommands
  unfold Engine.tick
  dsimp only
  rw [← hu]
  exact ⟨hreap.registry, ⟨hshape, hreap.playback.active⟩, hruns, hreap.saves⟩

theorem Tame.startTransient (he : e.Tame σ K) (d : Document) (scope : CancelScope) :
    ({ e with transients := (e.transients.start d scope).2 } : Engine).Tame σ K := by
  refine ⟨he.registry, he.playback, fun r hr => ?_, he.saves⟩
  rcases List.mem_append.1 hr with hr | hr
  · exact he.runs r hr
  · rw [List.mem_singleton.1 hr]
    exact fun i t h => by cases h

theorem Tame.playTransient (he : e.Tame σ K) (name text : String) (scope : CancelScope) :
    (e.playTransient name text scope).1.Tame σ K := by
  unfold Engine.playTransient
  split
  · exact he
  · exact he.startTransient _ scope

theorem Tame.cancelTransients (he : e.Tame σ K) : e.cancelTransients.Tame σ K := by
  obtain ⟨hruns, hshape⟩ := TransientRunner.reapCancelled_keeps he.runs he.playback.shape
    (e.transients.runs.foldl (fun c r => c.cancel r.scope) e.playback.scopes)
  exact ⟨he.registry, ⟨hshape, he.playback.active⟩, hruns, he.saves⟩

theorem shape_emptyChoices (s : ServiceSet) :
    ({ s with choices := s.choices.map fun _ => .empty } : ServiceSet).shape = s.shape :=
  s.shape_reset .game .choices

theorem Tame.assign (he : e.Tame σ K) {vars : VariableStore} (v : VariableStore)
    (hvars : e.services.variableStore = some vars) :
    (e.withServices { e.services with variableStore := some v }).Tame σ K := by
  refine he.withServices (Eq.trans ?_ he.playback.shape)
  show ServiceSet.shape { e.services with variableStore := some v } = e.services.shape
  unfold ServiceSet.shape
  rw [hvars]
  rfl

theorem Chooses.tame {u : Engine} (he : e.Tame σ K) (h : e.Chooses u) : u.Tame σ K := by
  induction h with
  | refl => exact he
  | read _ k ih => exact ih.withLibrary k
  | fault _ message ih => exact ih.emit _
  | clear _ ih => exact ih.withServices ((shape_emptyChoices _).trans ih.playback.shape)
  | assign _ v hvars ih => exact ih.assign v hvars
  | branch _ ih => exact ih.withPlayback (ih.playback.congr rfl rfl)
  | @startBelow u _ d ih =>
    have hbranch : (u.withScopes (u.playback.scopes.child u.player.scope).2).Tame σ K :=
      ih.withPlayback (ih.playback.congr rfl rfl)
    exact hbranch.startTransient d _
  | stop _ reason ih => exact ih.withPlayback (ih.playback.stop reason)

theorem Tame.continueInput (he : e.Tame σ K) : e.continueInput.Tame σ K :=
  he.withPlayback (he.playback.congr e.playback.services_continueInput
    (congrArg Bearings.active e.playback.bearings_continueInput))

theorem Selects.tame {u : Engine} (he : e.Tame σ K) (h : e.Selects u) : u.Tame σ K := by
  cases h with
  | within h => exact h.tame he
  | @jumps u h d next =>
    have hu := h.tame he
    refine hu.withPlayback
      (hu.playback.congr (u.playback.services_moveTo d next .endOfScript) ?_)
    exact congrArg Bearings.active (u.playback.bearings_moveTo d next .endOfScript)
  | goesOn h => exact (h.tame he).continueInput

theorem shape_restore (s : ServiceSet) (x : Snapshot) :
    (StateManager.restore s x).1.shape = s.shape := by
  have happly := StateMap.shape_apply x.records .game s
  unfold StateManager.restore
  split
  · rfl
  · generalize x.records.apply .game s = r at happly ⊢
    obtain ⟨t, err | _⟩ := r <;> exact happly

theorem shape_load (m : StateManager) (s : ServiceSet) (scope : StateScope) (map : StateMap) :
    (m.load s scope map).2.1.shape = s.shape := by
  have happly := StateMap.shape_apply map scope s
  unfold StateManager.load
  generalize map.apply scope s = r at happly ⊢
  obtain ⟨t, err | _⟩ := r <;> exact happly

theorem Tame.restoreSnapshot (he : e.Tame σ K) (position : Nat) (x : Snapshot) (d : Document) :
    (e.restoreSnapshot position x d).1.Tame σ K := by
  obtain ⟨u, hu⟩ : ∃ u, u = ((e.emit (.rollbackStarted e.cursor.spot? x.spot)).cancelPlaybackScope
      ).onPlayback (·.setSynchronizing true) := ⟨_, rfl⟩
  have hcancel := (he.emit (.rollbackStarted e.cursor.spot? x.spot)).cancelPlaybackScope
  have htame : u.Tame σ K := by
    rw [hu]
    exact hcancel.withPlayback (hcancel.playback.congr rfl rfl)
  have hshape := (shape_restore u.services x).trans htame.playback.shape
  unfold Engine.restoreSnapshot
  dsimp only
  rw [← hu]
  generalize StateManager.restore u.services x = r at hshape ⊢
  obtain ⟨s, err | _⟩ := r
  · have hback := htame.withServices hshape
    have hsync : ((u.withServices s).onPlayback (·.setSynchronizing false)).Tame σ K :=
      hback.withPlayback (hback.playback.congr rfl rfl)
    exact hsync.withPlayback (hsync.playback.stop _)
  · have hback := htame.withServices hshape
    have hcut : ((u.withServices s).withStack (u.stack.truncateAfter position)).Tame σ K :=
      hback.withPlayback (hback.playback.congr rfl rfl)
    have hplace := hcut.playback.restorePosition d x.spot.index x.played x.waiting
    exact hcut.withPlayback (hplace.congr rfl rfl)

theorem RollsBack.tame {found : Except Unavailable Nat}
    {r : Engine × Except EngineError RollbackOutcome} (he : e.Tame σ K) (h : e.RollsBack found r) :
    r.1.Tame σ K := by
  cases h with
  | unavailable k why => exact he.withLibrary k
  | unread hfound hx why => exact he
  | @restore position x k d hfound hx hload hrevision hindex =>
    exact (he.withLibrary k).restoreSnapshot position x d

theorem Tame.rollbackToPosition (he : e.Tame σ K) (position : Nat) :
    (e.rollbackToPosition position).1.Tame σ K :=
  (e.rollsBack_position position).tame he

theorem Tame.playForward (he : e.Tame σ K) (index : Nat) : (e.playForward index).1.Tame σ K :=
  he.withPlayback (he.playback.fastForward he.registry index)

theorem RewindsWithin.tame {u : Engine} (he : e.Tame σ K) (h : e.RewindsWithin u) :
    u.Tame σ K := by
  cases h with
  | stays => exact he
  | forward index => exact he.playForward index
  | back position => exact he.rollbackToPosition position
  | backAndForward position index => exact (he.rollbackToPosition position).playForward index

theorem Tame.rewindWithin (he : e.Tame σ K) (d : Document) (current index : Nat) :
    (e.rewindWithin d current index).1.Tame σ K :=
  (e.rewindsWithin d current index).tame he

theorem restorePlayer_tame {p : Playback} (hp : p.Tame σ) (c : RewindCheckpoint) :
    (restorePlayer p c).Tame σ := by
  unfold restorePlayer
  dsimp only
  refine ⟨?_, fun a ha => ?_⟩
  · rw [Playback.services_setSkip]
    exact hp.cancelActive.shape
  · have hnone := congrArg Bearings.active (bearings_restorePlayer p c)
    cases (hnone.symm.trans ha : none = some a)

theorem Tame.restoreCheckpoint (he : e.Tame σ K) (c : RewindCheckpoint) :
    (e.restoreCheckpoint c).1.Tame σ K := by
  obtain ⟨u, hu⟩ : ∃ u, u = e.onPlayback (·.setSynchronizing true) := ⟨_, rfl⟩
  have htame : u.Tame σ K := by
    rw [hu]
    exact he.withPlayback (he.playback.congr rfl rfl)
  have hfail : ∀ {s : ServiceSet} (err : ServiceError), s.shape = σ →
      (((u.withServices s).onPlayback (·.setSynchronizing false)).onPlayback
        (·.stop (.fault err.message))).Tame σ K := by
    intro s err hs
    have hback := htame.withServices hs
    have hsync : ((u.withServices s).onPlayback (·.setSynchronizing false)).Tame σ K :=
      hback.withPlayback (hback.playback.congr rfl rfl)
    exact hsync.withPlayback (hsync.playback.stop _)
  have hgame := (StateMap.shape_apply c.game .game u.services).trans htame.playback.shape
  unfold Engine.restoreCheckpoint
  dsimp only
  rw [← hu]
  generalize c.game.apply .game u.services = x at hgame ⊢
  obtain ⟨s, err | _⟩ := x
  · exact hfail err hgame
  · have hglobal := (StateMap.shape_apply c.global .global s).trans hgame
    dsimp only
    generalize c.global.apply .global s = x at hglobal ⊢
    obtain ⟨t, err | _⟩ := x
    · exact hfail err hglobal
    · have hback := htame.withServices hglobal
      have hstack : ((u.withServices t).withStack c.stack).Tame σ K :=
        hback.withPlayback (hback.playback.congr rfl rfl)
      exact hstack.withPlayback (restorePlayer_tame hstack.playback c)

theorem Rewinds.tame {u : Engine} (he : e.Tame σ K) (h : e.Rewinds u) : u.Tame σ K := by
  cases h with
  | within h => exact h.tame he
  | undone h hc => exact (h.tame he).restoreCheckpoint _

theorem Tame.saveGame (he : e.Tame σ K) {slot : String} (hk : K (e.saveGame slot).1.saves) :
    (e.saveGame slot).1.Tame σ K := by
  unfold Engine.saveGame at hk ⊢
  split
  · exact he
  · rename_i record hrecord
    rw [hrecord] at hk
    dsimp only at hk
    split
    · exact he.withPlayback (he.playback.congr rfl rfl)
    · rename_i m map hmap
      rw [hmap] at hk
      exact ⟨he.registry, he.playback.congr rfl rfl, he.runs, hk⟩

theorem Tame.saveScope (he : e.Tame σ K) {scope : StateScope} {slot : String}
    (hk : K (e.saveScope scope slot).1.saves) : (e.saveScope scope slot).1.Tame σ K := by
  unfold Engine.saveScope at hk ⊢
  split
  · exact he.withPlayback (he.playback.congr rfl rfl)
  · rename_i m map hmap
    rw [hmap] at hk
    exact ⟨he.registry, he.playback.congr rfl rfl, he.runs, hk⟩

theorem Tame.loadScope (he : e.Tame σ K) (scope : StateScope) (slot : String) :
    (e.loadScope scope slot).1.Tame σ K := by
  unfold Engine.loadScope
  split
  · exact he
  · exact he
  · rename_i map hmap
    have hshape := (shape_load e.playback.manager e.services scope map).trans he.playback.shape
    generalize e.playback.manager.load e.services scope map = r at hshape ⊢
    obtain ⟨m, s, err | _⟩ := r <;> exact he.withPlayback ⟨hshape, he.playback.active⟩


theorem Tame.loadGame (he : e.Tame σ K) (slot : String) : (e.loadGame slot).1.Tame σ K := by
  obtain ⟨k, hk⟩ := e.readGame_library slot
  have hread : (e.readGame slot).1.Tame σ K := hk ▸ he.withLibrary k
  unfold Engine.loadGame
  generalize e.readGame slot = r at hread ⊢
  obtain ⟨u, err | ⟨save, record, d⟩⟩ := r
  · exact hread
  · have hcancel := hread.cancelPlaybackScope
    dsimp only at hcancel ⊢
    obtain ⟨v, hv⟩ : ∃ v, v = u.cancelPlaybackScope := ⟨_, rfl⟩
    rw [← hv] at hcancel ⊢
    have hshape := (shape_load v.playback.manager v.services .game save.records).trans
      hcancel.playback.shape
    generalize v.playback.manager.load v.services .game save.records = r at hshape ⊢
    obtain ⟨m, s, err | _⟩ := r
    · exact hcancel.withPlayback ⟨hshape, hcancel.playback.active⟩
    · refine hcancel.withPlayback (Playback.Tame.restorePosition ?_ d _ _ _)
      exact ⟨hshape, hcancel.playback.active⟩

theorem Tame.scriptReplaced (he : e.Tame σ K) (d : Document) : (e.scriptReplaced d).Tame σ K := by
  have hcancel := he.cancelPlaybackScope
  unfold Engine.scriptReplaced
  dsimp only
  split
  · exact hcancel.withPlayback (hcancel.playback.stop _)
  · exact he

theorem Tame.replaceScript (he : e.Tame σ K)
    (read : Except LibraryError (Document × ScriptLibrary)) :
    (e.replaceScript read).1.Tame σ K := by
  unfold Engine.replaceScript
  split
  · exact he
  · exact (he.withLibrary _).scriptReplaced _

theorem Tame.resetState (he : e.Tame σ K) : e.resetState.Tame σ K := by
  refine he.withServices (Eq.trans ?_ he.playback.shape)
  unfold StateMap.reset
  have hfold : ∀ (l : List ServiceKey) (s : ServiceSet),
      (l.foldl (fun s key => s.reset .game key) s).shape = s.shape := by
    intro l
    induction l with
    | nil => exact fun _ => rfl
    | cons key rest ih => exact fun s => (ih _).trans (s.shape_reset .game key)
  exact hfold _ _

theorem Tame.perform (he : e.Tame σ K) {op : Operation} (hop : op.Keeps σ)
    (hk : op.Spares K e) : (e.perform op).Tame σ K := by
  have hframe : ∀ p : Playback, p.services = e.services → p.player.active = e.player.active →
      ({ e with playback := p } : Engine).Tame σ K := fun p hs ha =>
    he.withPlayback (he.playback.congr hs ha)
  cases op with
  | input i =>
    cases i with
    | tick delta => exact he.tick delta
    | goOn => exact he.continueInput
    | cancel =>
      refine hframe _ ?_ ?_
      · rw [Playback.services_setAutoPlay, Playback.services_setSkip]
        rfl
      · refine (congrArg Bearings.active (Playback.bearings_setAutoPlay _ _)).trans ?_
        exact congrArg Bearings.active (e.playback.bearings_setSkip false)
    | skip on =>
      exact hframe _ (e.playback.services_setSkip on)
        (congrArg Bearings.active (e.playback.bearings_setSkip on))
    | auto on =>
      exact hframe _ (e.playback.services_setAutoPlay on)
        (congrArg Bearings.active (e.playback.bearings_setAutoPlay on))
    | resume =>
      refine hframe _ rfl ?_
      show e.player.resume.1.active = _
      unfold Player.resume
      split <;> rfl
    | select index => exact (e.selects index).tame he
  | playFrom script index => exact (e.startsScript_playFrom script index).tame he
  | playStart => exact e.startsScript_playStartScript.tame he
  | playLabel script label => exact (e.startsScript_playFromLabel script label).tame he
  | preload script => exact (e.startsScript_preloadAndPlay script).tame he
  | stop => exact he.stop
  | playTransient name text scope => exact he.playTransient name text scope
  | takeStatus h =>
    have hruns : (e.transients.takeStatus h).2.runs = e.transients.runs := by
      unfold TransientRunner.takeStatus
      split <;> rfl
    exact ⟨he.registry, he.playback, fun r hr => he.runs r (hruns ▸ hr), he.saves⟩
  | cancelTransients => exact he.cancelTransients
  | resetState => exact he.resetState
  | setDepth depth => exact hframe _ rfl rfl
  | rollback target => exact (e.rollsBack _).tame he
  | rollbackWhere p => exact (e.rollsBack _).tame he
  | allowRollback allowed => exact hframe _ rfl rfl
  | rewind target => exact (e.rewinds target).tame he
  | save slot => exact he.saveGame hk
  | load slot => exact he.loadGame slot
  | quickSave => exact he.saveGame hk
  | quickLoad => exact he.loadGame _
  | delete slot => exact ⟨he.registry, he.playback, he.runs, hk⟩
  | saveGlobal => exact he.saveScope hk
  | loadGlobal => exact he.loadScope _ _
  | saveSettings => exact he.saveScope hk
  | loadSettings => exact he.loadScope _ _
  | loadScript name text => exact he.replaceScript _
  | reloadScript name => exact he.replaceScript _
  | write s => exact he.withServices hop
  | setScopes c => exact hframe _ rfl rfl
  | drain => exact hframe _ rfl rfl

theorem Tame.performAll (he : e.Tame σ K) {l : List Operation} (hl : ∀ op ∈ l, op.Keeps σ)
    (hk : ∀ before op after, l = before ++ op :: after → op.Spares K (e.performAll before)) :
    (e.performAll l).Tame σ K := by
  induction l generalizing e with
  | nil => exact he
  | cons op rest ih =>
    have hop := he.perform (hl op List.mem_cons_self) (hk [] op rest rfl)
    refine ih hop (fun op h => hl op (List.mem_cons_of_mem _ h)) fun before op' after heq => ?_
    exact hk (op :: before) op' after (by rw [heq]; rfl)

theorem Tame.performAll_of_free (he : e.Tame σ fun _ => True) {l : List Operation}
    (hl : ∀ op ∈ l, op.Keeps σ) : (e.performAll l).Tame σ fun _ => True :=
  he.performAll hl fun _ op _ _ => by cases op <;> exact trivial

theorem starts_build {config : Config} {parts : EngineParts} {P : Task → Prop}
    (h : build config parts = .ok e) (hP : ∀ t, ¬t.IsHost → P t)
    (hc : ∀ k ∈ parts.commands, ∀ c t, k.begin c = .ok t → P t) : e.registry.Starts P := by
  obtain ⟨registry, services, -, hregistry, -, rfl⟩ := build_eq_ok h
  exact Registry.starts_registerAll hregistry hP hc

/-- An engine whose host commands leave the services is built over services of a shape. -/
theorem tame_build {config : Config} {parts : EngineParts} (h : build config parts = .ok e)
    (hc : ∀ k ∈ parts.commands, ∀ c t, k.begin c = .ok t → t.Tame) :
    e.Tame e.services.shape fun _ => True := by
  have hregistry := starts_build h (fun _ => Task.tame_of_not_isHost) hc
  have hactive : e.player.active = none := (fresh_build h).active
  have hruns : e.transients.runs = [] := by
    obtain ⟨registry, services, -, -, -, rfl⟩ := build_eq_ok h
    rfl
  refine ⟨hregistry, ⟨rfl, fun a ha => ?_⟩, fun r hr => ?_, trivial⟩
  · cases hactive.symm.trans ha
  · rw [hruns] at hr
    cases hr

/-- Registering adds to the services of the host only. -/
theorem exists_host_of_registerServices {s t : ServiceSet} {l : List HostService}
    (h : registerServices s l = .ok t) : ∃ host, t = { s with host := host } := by
  induction l generalizing s with
  | nil =>
    cases h
    exact ⟨_, rfl⟩
  | cons k rest ih =>
    obtain ⟨u, hu, h⟩ := exists_of_bind_ok h
    obtain ⟨rfl, -, -⟩ := ServiceSet.register_eq_ok hu
    obtain ⟨host, rfl⟩ := ih h
    exact ⟨host, rfl⟩

theorem registerServices_eq_ok {s t : ServiceSet} {l : List HostService}
    (h : registerServices s l = .ok t) (hs : s.ids.Nodup)
    (hfree : ∀ id ∈ s.ids, GameSave.isReserved id = false) :
    t.ids.Nodup ∧ (∀ id ∈ t.ids, GameSave.isReserved id = false) ∧ t.host = s.host ++ l := by
  induction l generalizing s with
  | nil =>
    cases h
    exact ⟨hs, hfree, (List.append_nil _).symm⟩
  | cons k rest ih =>
    obtain ⟨u, hu, h⟩ := exists_of_bind_ok h
    obtain ⟨rfl, hnew, hname⟩ := ServiceSet.register_eq_ok hu
    obtain ⟨hnodup, hfree, hhost⟩ := ih h
      (by
        rw [ServiceSet.ids_append]
        exact List.nodup_append.2 ⟨hs, List.nodup_singleton _, fun a ha b hb hab =>
          hnew (List.mem_singleton.1 hb ▸ hab ▸ ha)⟩)
      (by
        rw [ServiceSet.ids_append]
        intro id hid
        rcases List.mem_append.1 hid with hid | hid
        · exact hfree id hid
        · rw [List.mem_singleton.1 hid]
          exact decide_eq_false hname)
    exact ⟨hnodup, hfree, hhost.trans (List.append_assoc _ _ _)⟩

/-- The services of an engine have names of their own, none of which is reserved; those of the host
are the ones it is built from. -/
theorem services_build {config : Config} {parts : EngineParts} (h : build config parts = .ok e) :
    e.services.ids.Nodup ∧ (∀ id ∈ e.services.ids, GameSave.isReserved id = false) ∧
      e.services.host = parts.services := by
  obtain ⟨registry, services, -, -, hservices, rfl⟩ := build_eq_ok h
  refine registerServices_eq_ok hservices ?_ ?_
  · show ["variables", "text-log", "choices", "call-stack", "played-scripts", "preferences"].Nodup
    decide
  · show ∀ id ∈ ["variables", "text-log", "choices", "call-stack", "played-scripts",
      "preferences"], GameSave.isReserved id = false
    decide

end Engine

end Playhead
