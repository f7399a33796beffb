import Playhead.Proofs.Engine.Recorded
import Playhead.Proofs.Motion.Moves

/-!
What the operations of an engine are made of, one act after the other, with the moves that playback
makes on the way.

What every act keeps, every operation keeps; that is shown once here for all properties.
-/

namespace Playhead

open Playback (Move Guides Sited)

/-- Whether an operation takes up the game of a slot. -/
def Operation.Opens (e : Engine) (slot : String) : Operation → Prop
  | .load other => other = slot
  | .quickLoad => e.config.state.quickSlot = slot
  | _ => False

/-- Whether an operation takes up a saved game. -/
def Operation.TakesUp (op : Operation) (e : Engine) (save : GameSave) : Prop :=
  ∃ slot record, op.Opens e slot ∧ e.Saved slot save record

/-- The snapshots that history may hold after an operation beside those that it captures. -/
def Operation.Takes (op : Operation) (e₀ : Engine) (x : Snapshot) : Prop :=
  x ∈ e₀.stack.snapshots ∨ ∃ save, op.TakesUp e₀ save ∧ x ∈ save.rollback

/-- How an operation that was called in one state writes to the services in another, beside what
commands do to them. -/
inductive Operation.Rewrites (op : Operation) (e₀ e : Engine) : ServiceSet → Prop where
  | clear : Rewrites op e₀ e { e.services with choices := e.services.choices.map fun _ => .empty }
  | assign {vars : VariableStore} (v : VariableStore) (h : e.services.variableStore = some vars) :
    Rewrites op e₀ e { e.services with variableStore := some v }
  | reset : Rewrites op e₀ e (StateMap.reset .game e.services)
  | restore {x : Snapshot} (hx : x ∈ e.stack.snapshots) :
    Rewrites op e₀ e (StateManager.restore e.services x).1
  /-- The records of before are put back. -/
  | undo {scope : StateScope} {map : StateMap} (h : scope = .game ∨ scope = .global)
    (hmap : StateMap.collect e₀.services scope = .ok map) :
    Rewrites op e₀ e (map.apply scope e.services).1
  | takeUp {save : GameSave} (h : op.TakesUp e₀ save) :
    Rewrites op e₀ e (save.records.apply .game e.services).1
  | takeScope {scope : StateScope} (map : StateMap)
    (h : op = .loadGlobal ∧ scope = .global ∨ op = .loadSettings ∧ scope = .settings) :
    Rewrites op e₀ e (map.apply scope e.services).1
  | write {s : ServiceSet} (h : op = .write s) : Rewrites op e₀ e s

namespace Engine

/-- The moves on the way to an index. -/
def rewindWithinMoves (e : Engine) (d : Document) (current index : Nat) : List Move :=
  if current < index then e.playback.forwardMoves e.env index
  else
    match e.rewindPosition? d.name index with
    | none => []
    | some position =>
      match e.rollbackToPosition position with
      | (_, .error _) => []
      | (u, .ok outcome) =>
        if !outcome.isCompleted then []
        else if u.cursor.index = some index then []
        else u.playback.forwardMoves u.env index

def rewindIndexMoves (e : Engine) (d : Document) (index : Nat) : List Move :=
  let current := e.cursor.index.getD d.size
  if index = current && e.player.active.isNone then []
  else
    match e.rewindCheckpoint with
    | .error _ => []
    | .ok _ => e.rewindWithinMoves d current index

/-- The moves of a rewind, whether it gets to its target or not. -/
def rewindMoves (e : Engine) (target : RewindTarget) : List Move :=
  match e.player.document with
  | none => []
  | some d =>
    match target with
    | .line n =>
      match d.indexForLine? n with
      | some index => e.rewindIndexMoves d index
      | none => []
    | .label name =>
      match d.labelIndex? name with
      | some index => e.rewindIndexMoves d index
      | none => []

/-- The moves that playback makes in an operation. -/
def moves (e : Engine) : Operation → List Move
  | .input (.tick delta) => Move.along e.playback (e.playback.tickTrace e.env delta)
  | .rewind target => e.rewindMoves target
  | _ => []

/-- An engine after every transient script has taken its turn. -/
def turnTransients (e : Engine) (delta : Nanoseconds) : Engine :=
  let (transients, scene) := e.transients.tick e.registry e.playback.scopes e.playback.scene delta
    e.config.player.maxCommands
  { e with transients := transients, playback := { e.playback with scene := scene } }

/-- All that one act of an operation can be, for an operation that was called in a state. -/
inductive Act (op : Operation) (e₀ e : Engine) : List Move → Engine → Prop where
  /-- Playback makes moves. -/
  | play {p : Playback} {l : List Playback} (hs : Sited e.env e.playback)
    (h : Playback.Path e.env e.playback l p)
    (hkept : ∀ K, Playback.Endures e.env K → K e.playback → K p) :
    Act op e₀ e (Move.along e.playback l) { e with playback := p }
  /-- The host changes playback and leaves the services. -/
  | guide {p : Playback} (h : Guides (op.Takes e₀) e.playback p) :
    Act op e₀ e [] { e with playback := p }
  /-- The command in flight is dropped. -/
  | drop : Act op e₀ e [] (e.onPlayback Playback.cancelActive)
  | rewrite {s : ServiceSet} (h : op.Rewrites e₀ e s) : Act op e₀ e [] (e.withServices s)
  | turn (delta : Nanoseconds) : Act op e₀ e [] (e.turnTransients delta)
  /-- Transient scripts whose scope is cancelled end. -/
  | reap : Act op e₀ e [] e.reapCancelled
  /-- A transient script is put in line. -/
  | queue (d : Document) (scope : CancelScope) :
    Act op e₀ e [] { e with transients := (e.transients.start d scope).2 }
  /-- Slots, files and what is told of earlier runs change. -/
  | aside {u : Engine} (hp : u.playback = e.playback) (hr : u.registry = e.registry)
    (ht : u.transients.runs = e.transients.runs) (hc : u.config = e.config) : Act op e₀ e [] u

/-- Finitely many acts and the moves made in them. -/
inductive Acts (op : Operation) (e₀ : Engine) : Engine → List Move → Engine → Prop where
  | refl (e : Engine) : Acts op e₀ e [] e
  | cons {e u v : Engine} {l k : List Move} (h : Act op e₀ e l u) (tail : Acts op e₀ u k v) :
    Acts op e₀ e (l ++ k) v

variable {op : Operation} {e₀ e u v : Engine} {l k : List Move}

theorem sited_turns {w : Leeway} (hs : Sited e.env e.playback) (h : Turns w e u) :
    Sited u.env u.playback :=
  ⟨steps_turns hs.toSteps h, hs.current.turns h.turns⟩

theorem Reachable.sited (h : e.Reachable) : Sited e.env e.playback :=
  ⟨h.steps, h.current⟩

namespace Acts

theorem one (h : Act op e₀ e l u) : Acts op e₀ e l u := by
  have h := Acts.cons h (.refl u)
  rwa [List.append_nil] at h

theorem trans (h : Acts op e₀ e l u) (h' : Acts op e₀ u k v) : Acts op e₀ e (l ++ k) v := by
  induction h with
  | refl => exact h'
  | cons h _ ih =>
    rw [List.append_assoc]
    exact .cons h (ih h')

/-- Acts without moves after others. -/
theorem still (h : Acts op e₀ e l u) (h' : Acts op e₀ u [] v) : Acts op e₀ e l v := by
  have h := h.trans h'
  rwa [List.append_nil] at h

/-- The host changes playback, but neither what is in flight nor history. -/
theorem frame {p : Playback} (hs : p.services = e.services) (ha : p.player.active = e.player.active)
    (hw : p.cursor.waiting = true → e.cursor.waiting = true)
    (hk : p.manager.stack = e.stack) : Acts op e₀ e [] { e with playback := p } :=
  .one (.guide (.of_frame hs ha hw hk))

/-- History loses snapshots at most. -/
theorem shed {m : StateManager} (h : m.stack.snapshots.Sublist e.stack.snapshots) :
    Acts op e₀ e [] (e.withManager m) :=
  .one (.guide ⟨rfl, .inl rfl, id, fun y hy => ⟨y, .inl (h.subset hy), .refl y⟩⟩)

/-- What drops the command in flight and then leaves the services. -/
theorem dropped {f : Playback → Playback} (hf : ∀ p : Playback, f p.cancelActive = f p)
    (h : ∀ p : Playback, p.player.active = none → Guides (op.Takes e₀) p (f p)) :
    Acts op e₀ e [] (e.onPlayback f) := by
  have hidle : e.playback.cancelActive.player.active = none :=
    congrArg Bearings.active e.playback.bearings_cancelActive
  have hguide : Act op e₀ (e.onPlayback Playback.cancelActive) []
      { e with playback := f e.playback.cancelActive } := .guide (h _ hidle)
  rw [hf] at hguide
  exact (one .drop).trans (one hguide)

/-- Nothing that a host does changes the configuration. -/
theorem config (h : Acts op e₀ e l u) : u.config = e.config := by
  induction h with
  | refl => rfl
  | cons h _ ih =>
    rw [ih]
    cases h with
    | aside hp hr ht hc => exact hc
    | _ => rfl

/-- What every act keeps, together with the moves that were made, holds before each move and at the
end. -/
theorem keeps {J : List Move → Engine → Prop} {K : Move → List Move → Prop}
    (h : Acts op e₀ e l u)
    (hact : ∀ H e l u, Act op e₀ e l u → J H e → J (H ++ l) u ∧
      ∀ earlier m later, l = earlier ++ m :: later → K m (H ++ earlier))
    {H : List Move} (he : J H e) : J (H ++ l) u ∧
      ∀ earlier m later, l = earlier ++ m :: later → K m (H ++ earlier) := by
  induction h generalizing H with
  | refl e => exact ⟨(List.append_nil H).symm ▸ he, fun earlier m later h => by simp at h⟩
  | @cons e u v l k h tail ih =>
    obtain ⟨hu, hl⟩ := hact H e l u h he
    obtain ⟨hv, hk⟩ := ih hu
    refine ⟨List.append_assoc H l k ▸ hv, fun earlier m later heq => ?_⟩
    rcases List.append_eq_append_iff.1 heq with ⟨rest, rfl, hrest⟩ | ⟨rest, hrest, hlater⟩
    · have h := hk rest m later hrest
      rwa [List.append_assoc] at h
    · cases rest with
      | nil =>
        have h := hk [] m later hlater.symm
        rw [List.append_nil] at hrest
        rw [List.append_nil] at h
        rwa [hrest] at h
      | cons m' rest =>
        obtain ⟨rfl, hlater⟩ := List.cons.inj hlater
        exact hl earlier m rest hrest

end Acts

theorem acts_emit (e : Engine) (event : Event) : Acts op e₀ e [] (e.emit event) :=
  .frame rfl rfl id rfl

theorem acts_withScopes (e : Engine) (c : Cancellations) : Acts op e₀ e [] (e.withScopes c) :=
  .frame rfl rfl id rfl

theorem acts_cancelPlaybackScope (e : Engine) : Acts op e₀ e [] e.cancelPlaybackScope :=
  (((Acts.one .drop).trans (acts_withScopes _ _)).trans (.one .reap)).trans
    (.frame rfl rfl id rfl)

theorem acts_clearRollback (e : Engine) : Acts op e₀ e [] e.clearRollback :=
  .shed (List.nil_sublist _)

theorem acts_stopped (e : Engine) (reason : StopReason) :
    Acts op e₀ e [] (e.onPlayback (·.stop reason)) :=
  .dropped (fun p => p.stop_cancelActive reason) fun _ ha => Playback.guides_stop ha reason

theorem acts_restorePosition (e : Engine) (d : Document) (i played : Nat) (waiting : Bool) :
    Acts op e₀ e [] (e.onPlayback (·.restorePosition d i played waiting)) :=
  .dropped (fun p => p.restorePosition_cancelActive d i played waiting)
    fun _ ha => Playback.guides_restorePosition ha d i played waiting

theorem acts_restorePlayer (e : Engine) (c : RewindCheckpoint) :
    Acts op e₀ e [] (e.onPlayback (restorePlayer · c)) := by
  refine .dropped (fun p => ?_) fun p ha => ?_
  · unfold restorePlayer
    rw [Playback.cancelActive_cancelActive]
  · refine .of_idle ?_ (congrArg Bearings.active (bearings_restorePlayer p c))
      (congrArg Bearings.stack (bearings_restorePlayer p c))
    unfold restorePlayer
    rw [Playback.cancelActive_of_idle ha]
    exact Playback.services_setSkip _ _

theorem acts_withLibrary (e : Engine) (k : ScriptLibrary) : Acts op e₀ e [] (e.withLibrary k) :=
  .frame rfl rfl id rfl

theorem acts_loadDocument (e : Engine) (name : String) :
    Acts op e₀ e [] (e.loadDocument name).1 := by
  obtain ⟨k, hk⟩ := e.loadDocument_withLibrary name
  exact hk ▸ acts_withLibrary e k

theorem acts_beginPlayback (e : Engine) (d : Document) (i : Nat) :
    Acts op e₀ e [] (e.beginPlayback d i) :=
  ((acts_cancelPlaybackScope e).trans (acts_clearRollback _)).trans
    (.dropped (fun p => p.start_cancelActive d i) fun _ ha => Playback.guides_start ha d i)

theorem ReadsAhead.acts {e u : Engine} (h : e.ReadsAhead u) : Acts op e₀ e [] u := by
  induction h with
  | refl => exact .refl e
  | load _ name ih => exact ih.trans (acts_loadDocument _ name)
  | progress _ script loaded total ih => exact ih.trans (acts_emit _ _)
  | fault _ message ih => exact ih.trans (acts_emit _ _)

theorem StartsScript.acts {e : Engine} {r : Engine × Except EngineError Unit}
    (h : e.StartsScript r) : Acts op e₀ e [] r.1 := by
  cases h with
  | fails h err => exact h.acts
  | @begins script v u d hload h index =>
    have hread : Acts op e₀ e [] (e.loadDocument script).1 := acts_loadDocument e script
    rw [hload] at hread
    exact (hread.trans h.acts).trans (acts_beginPlayback u d index)

theorem acts_stop (e : Engine) : Acts op e₀ e [] e.stop := by
  have hcancel : Acts op e₀ e [] e.cancelPlaybackScope := acts_cancelPlaybackScope e
  unfold stop
  split
  · exact .refl e
  · dsimp only
    split
    · exact hcancel.trans (acts_clearRollback _)
    · exact (hcancel.trans (acts_stopped _ .requested)).trans (acts_clearRollback _)

/-- A tick plays on; then transient scripts end or take their turn. -/
theorem acts_tick (hs : Sited e.env e.playback) (delta : Nanoseconds) :
    Acts op e₀ e (e.moves (.input (.tick delta))) (e.tick delta).1 := by
  have hplays : Acts op e₀ e (e.moves (.input (.tick delta)))
      { e with playback := (e.playback.tick e.env delta).1 } :=
    .one (.play hs (Playback.tick_path delta hs.toSteps)
      fun _ hK he => hK.tick he hs.toSteps delta)
  exact (hplays.still (.one .reap)).still (.one (.turn delta))

theorem acts_playTransient (e : Engine) (name text : String) (scope : CancelScope) :
    Acts op e₀ e [] (e.playTransient name text scope).1 := by
  unfold playTransient
  split
  · exact .refl e
  · exact .one (.queue _ scope)

theorem acts_cancelTransients (e : Engine) : Acts op e₀ e [] e.cancelTransients := by
  obtain ⟨c, hc⟩ : ∃ c, c = e.transients.runs.foldl (fun c r => c.cancel r.scope)
      e.playback.scopes := ⟨_, rfl⟩
  have hreap : Act op e₀ (e.withScopes c) [] (e.withScopes c).reapCancelled := .reap
  rw [hc] at hreap
  exact (acts_withScopes e _).trans (.one hreap)

theorem Chooses.acts {e u : Engine} (h : e.Chooses u) : Acts op e₀ e [] u := by
  induction h with
  | refl => exact .refl e
  | read _ k ih => exact ih.trans (acts_withLibrary _ k)
  | fault _ message ih => exact ih.trans (acts_emit _ _)
  | clear _ ih => exact ih.trans (.one (.rewrite .clear))
  | assign _ v hvars ih => exact ih.trans (.one (.rewrite (.assign v hvars)))
  | branch _ ih => exact ih.trans (acts_withScopes _ _)
  | startBelow _ d ih => exact (ih.trans (acts_withScopes _ _)).trans (.one (.queue d _))
  | stop _ reason ih => exact ih.trans (acts_stopped _ reason)

theorem Selects.acts {e u : Engine} (h : e.Selects u) : Acts op e₀ e [] u := by
  cases h with
  | within h => exact h.acts
  | @jumps u h d next =>
    exact h.acts.trans (.one (.guide (u.playback.guides_moveTo d next .endOfScript)))
  | @goesOn u h => exact h.acts.trans (.one (.guide u.playback.guides_continueInput))

theorem acts_setSynchronizing (e : Engine) (on : Bool) :
    Acts op e₀ e [] (e.onPlayback (·.setSynchronizing on)) :=
  .frame rfl rfl id rfl

theorem acts_restoreSnapshot {x : Snapshot} (hx : x ∈ e.stack.snapshots) (position : Nat)
    (d : Document) : Acts op e₀ e [] (e.restoreSnapshot position x d).1 := by
  obtain ⟨u, hu⟩ : ∃ u, u = ((e.emit (.rollbackStarted e.cursor.spot? x.spot)).cancelPlaybackScope
      ).onPlayback (·.setSynchronizing true) := ⟨_, rfl⟩
  have hstart : Acts op e₀ e [] u := by
    rw [hu]
    exact ((acts_emit e _).trans (acts_cancelPlaybackScope _)).trans (acts_setSynchronizing _ true)
  have hstack : u.stack = e.stack := by
    rw [hu]
    exact congrArg Bearings.stack
      (e.emit (.rollbackStarted e.cursor.spot? x.spot)).bearings_cancelPlaybackScope
  have hrestore := hstart.trans (.one (.rewrite (.restore (hstack ▸ hx))))
  unfold restoreSnapshot
  dsimp only
  rw [← hu]
  generalize StateManager.restore u.services x = r at hrestore ⊢
  obtain ⟨s, err | _⟩ := r
  · exact (hrestore.trans (acts_setSynchronizing _ false)).trans (acts_stopped _ _)
  · exact ((hrestore.trans (.shed (List.take_sublist _ _))).trans
      (acts_restorePosition _ d x.spot.index x.played x.waiting)).trans
      (acts_setSynchronizing _ false)

theorem RollsBack.acts {e : Engine} {found : Except Unavailable Nat}
    {r : Engine × Except EngineError RollbackOutcome} (h : e.RollsBack found r) :
    Acts op e₀ e [] r.1 := by
  cases h with
  | unavailable k why => exact acts_withLibrary e k
  | unread hfound hx why => exact .refl e
  | @restore position x k d hfound hx hload hrevision hindex =>
    exact (acts_withLibrary e k).trans
      (acts_restoreSnapshot (e := e.withLibrary k) (List.mem_of_getElem? hx) position d)

theorem acts_playForward (hs : Sited e.env e.playback) (index : Nat) :
    Acts op e₀ e (e.playback.forwardMoves e.env index) (e.playForward index).1 := by
  show Acts op e₀ e _ { e with playback := (e.playback.fastForward e.env index).1 }
  rcases Playback.fastForward_cases e.env e.playback index with ⟨hsame, hnone⟩ | ⟨f, hend, hmoves⟩
  · rw [hsame, hnone]
    exact .refl e
  · rw [hend, hmoves]
    have hhasten : Acts op e₀ e [] (e.onPlayback (·.hasten f)) := .frame rfl rfl id rfl
    have hsited : Sited e.env (e.playback.hasten f) :=
      ⟨⟨hs.registry, hs.read, hs.placed⟩, hs.current⟩
    have hplay := hhasten.trans (.one (.play hsited
      (Playback.forwardTrace_path e.playback.cursor.played (e.env.config.fastForwardLimit + 1)
        hsited.toSteps) fun _ hK he => hK.forward he hsited.toSteps _ _))
    exact hplay.still (.frame rfl rfl id rfl)

theorem acts_rewindWithin (hs : Sited e.env e.playback) (d : Document) (current index : Nat) :
    Acts op e₀ e (e.rewindWithinMoves d current index) (e.rewindWithin d current index).1 := by
  unfold rewindWithin rewindWithinMoves
  by_cases hlt : current < index
  · rw [if_pos hlt, if_pos hlt]
    exact acts_playForward hs index
  · rw [if_neg hlt, if_neg hlt]
    cases e.rewindPosition? d.name index with
    | none => exact .refl e
    | some position =>
      have hturns := rollbackToPosition_turns (w := .none) ⟨hs.registry, hs.read⟩ position
      have hback : Acts op e₀ e [] (e.rollbackToPosition position).1 :=
        (e.rollsBack_position position).acts
      dsimp only
      generalize e.rollbackToPosition position = r at hturns hback ⊢
      obtain ⟨u, err | outcome⟩ := r
      · exact hback
      · dsimp only at hturns hback ⊢
        by_cases hdone : (!outcome.isCompleted) = true
        · rw [if_pos hdone, if_pos hdone]
          exact hback
        · rw [if_neg hdone, if_neg hdone]
          by_cases hthere : u.cursor.index = some index
          · rw [if_pos hthere, if_pos hthere]
            exact hback
          · rw [if_neg hthere, if_neg hthere]
            exact hback.trans (acts_playForward (sited_turns hs hturns) index)

theorem acts_restoreCheckpoint {c : RewindCheckpoint} (hc : e₀.rewindCheckpoint = .ok c)
    (e : Engine) : Acts op e₀ e [] (e.restoreCheckpoint c).1 := by
  have hstack : c.stack = e₀.stack := (rewindCheckpoint_eq hc).2.2
  obtain ⟨game, hgame, hc⟩ := exists_of_bind_ok hc
  obtain ⟨global, hglobal, hc⟩ := exists_of_bind_ok hc
  cases hc
  obtain ⟨u, hu⟩ : ∃ u, u = e.onPlayback (·.setSynchronizing true) := ⟨_, rfl⟩
  have hfirst : Acts op e₀ e [] u := hu ▸ acts_setSynchronizing e true
  have hundo := hfirst.trans (.one (.rewrite (.undo (.inl rfl) (exists_of_mapError_ok hgame))))
  unfold restoreCheckpoint
  dsimp only
  rw [← hu]
  generalize game.apply .game u.services = x at hundo ⊢
  obtain ⟨s, err | _⟩ := x
  · exact (hundo.trans (acts_setSynchronizing _ false)).trans (acts_stopped _ _)
  · have hundo := hundo.trans
      (.one (.rewrite (.undo (.inr rfl) (exists_of_mapError_ok hglobal))))
    dsimp only at hundo ⊢
    generalize hx : global.apply .global s = x
    rw [show global.apply .global (u.withServices s).services = x from hx] at hundo
    obtain ⟨t, err | _⟩ := x
    · exact (hundo.trans (acts_setSynchronizing _ false)).trans (acts_stopped _ _)
    · refine (hundo.trans (.one (.guide ?_))).trans (acts_restorePlayer _ _)
      exact ⟨rfl, .inl rfl, id, fun y hy => ⟨y, .inr (.inl (hstack ▸ hy)), .refl y⟩⟩

theorem acts_rewindToIndex (hs : Sited e.env e.playback) (d : Document) (index : Nat) :
    Acts op e e (e.rewindIndexMoves d index) (e.rewindToIndex d index).1 := by
  unfold rewindToIndex rewindIndexMoves
  dsimp only
  split
  · exact .refl e
  · cases hc : e.rewindCheckpoint with
    | error err => exact .refl e
    | ok c =>
      have hwithin : Acts op e e _ (e.rewindWithin d (e.cursor.index.getD d.size) index).1 :=
        acts_rewindWithin hs d _ index
      dsimp only
      generalize e.rewindWithin d (e.cursor.index.getD d.size) index = r at hwithin ⊢
      obtain ⟨u, err | _ | _⟩ := r
      · exact hwithin
      · dsimp only
        split
        · exact hwithin
        · have hback := hwithin.still (acts_restoreCheckpoint hc u)
          generalize u.restoreCheckpoint c = r at hback ⊢
          obtain ⟨v, err | _⟩ := r <;> exact hback
      · exact hwithin

theorem acts_rewindTo (hs : Sited e.env e.playback) (target : RewindTarget) :
    Acts op e e (e.rewindMoves target) (e.rewindTo target).1 := by
  unfold rewindTo rewindMoves
  cases e.player.document with
  | none => exact .refl e
  | some d =>
    cases target with
    | line n =>
      dsimp only
      cases d.indexForLine? n with
      | none => exact .refl e
      | some index => exact acts_rewindToIndex hs d index
    | label name =>
      dsimp only
      cases d.labelIndex? name with
      | none => exact .refl e
      | some index => exact acts_rewindToIndex hs d index

theorem acts_withManager {m : StateManager} (h : m.stack = e.stack) :
    Acts op e₀ e [] (e.withManager m) :=
  .shed (h ▸ .refl _)

theorem acts_saveMap (e : Engine) (scope : StateScope) (slot : String) (map : StateMap) :
    Acts op e₀ e [] (e.saveMap scope slot map).1 :=
  .one (.aside rfl rfl rfl rfl)

theorem acts_saveGame (e : Engine) (slot : String) : Acts op e₀ e [] (e.saveGame slot).1 := by
  unfold saveGame
  split
  · exact .refl e
  · rename_i record _
    have hstack := saveMap_stack e.playback.manager e.services record e.config.state.savedSteps
    generalize e.playback.manager.saveMap e.services record e.config.state.savedSteps = r
      at hstack ⊢
    obtain ⟨m, err | map⟩ := r
    · exact acts_withManager hstack
    · exact (acts_withManager hstack).trans (acts_saveMap _ .game slot map)

theorem acts_saveScope (e : Engine) (scope : StateScope) (slot : String) :
    Acts op e₀ e [] (e.saveScope scope slot).1 := by
  have hstack := store_stack e.playback.manager e.services scope
  unfold saveScope
  generalize e.playback.manager.store e.services scope = r at hstack ⊢
  obtain ⟨m, err | map⟩ := r
  · exact acts_withManager hstack
  · exact (acts_withManager hstack).trans (acts_saveMap _ scope slot map)

/-- Putting a map into the services, and keeping it if it is taken in. -/
theorem acts_load {scope : StateScope} {map : StateMap}
    (h : op.Rewrites e₀ e (map.apply scope e.services).1) :
    Acts op e₀ e [] ((e.withManager (e.playback.manager.load e.services scope map).1).withServices
      (e.playback.manager.load e.services scope map).2.1) := by
  have hwrite : Acts op e₀ e [] (e.withServices (map.apply scope e.services).1) :=
    .one (.rewrite h)
  unfold StateManager.load
  generalize map.apply scope e.services = r at hwrite ⊢
  obtain ⟨s, err | _⟩ := r
  · exact hwrite
  · exact hwrite.trans (acts_withManager (e := e.withServices s) rfl)

theorem acts_loadScope (e : Engine) {scope : StateScope} (slot : String)
    (h : op = .loadGlobal ∧ scope = .global ∨ op = .loadSettings ∧ scope = .settings) :
    Acts op e₀ e [] (e.loadScope scope slot).1 := by
  unfold loadScope
  split
  · exact .refl e
  · exact .refl e
  · rename_i map _
    have htakes : op.Rewrites e₀ e (map.apply scope e.services).1 := .takeScope map h
    have hload := acts_load htakes
    generalize e.playback.manager.load e.services scope map = r at hload ⊢
    obtain ⟨m, s, err | _⟩ := r <;> exact hload

theorem acts_loadGame (he : e.Read) {slot : String} (hop : op.Opens e slot) :
    Acts op e e [] (e.loadGame slot).1 := by
  obtain ⟨k, hk⟩ := e.readGame_library slot
  have hsaved := (readGame_turns (w := .none) he slot).2
  have hread : Acts op e e [] (e.withLibrary k) := acts_withLibrary e k
  unfold loadGame
  generalize e.readGame slot = r at hk hsaved ⊢
  obtain ⟨u, err | ⟨save, record, d⟩⟩ := r
  · rw [show u = _ from hk]
    exact hread
  · have htakes : op.TakesUp e save := ⟨slot, record, hop, (hsaved save record d rfl).1⟩
    rw [show u = _ from hk]
    obtain ⟨v, hv⟩ : ∃ v, v = (e.withLibrary k).cancelPlaybackScope := ⟨_, rfl⟩
    have hload := (hread.trans (hv ▸ acts_cancelPlaybackScope _)).trans
      (acts_load (e := v) (.takeUp htakes))
    dsimp only
    rw [← hv]
    generalize v.playback.manager.load v.services .game save.records = r at hload ⊢
    obtain ⟨m, s, err | _⟩ := r
    · exact hload
    · refine (hload.trans (.one (.guide ?_))).trans (acts_restorePosition _ d _ _ _)
      refine ⟨rfl, .inl rfl, id, fun y hy => ⟨y, .inr (.inr ⟨save, htakes, ?_⟩), .refl y⟩⟩
      have hmem := RollbackStack.mem_replace hy
      split at hmem
      · exact hmem
      · cases hmem

theorem acts_replaceScript (e : Engine) (r : Except LibraryError (Document × ScriptLibrary)) :
    Acts op e₀ e [] (e.replaceScript r).1 := by
  unfold replaceScript
  split
  · exact .refl e
  · rename_i d k
    have hread : Acts op e₀ e [] (e.withLibrary k) := acts_withLibrary e k
    unfold scriptReplaced
    dsimp only
    split
    · exact (hread.trans (acts_cancelPlaybackScope _)).trans (acts_stopped _ .scriptReloaded)
    · exact hread

/-- Every operation is made of acts. -/
theorem perform_acts (hs : Sited e.env e.playback) (op : Operation) :
    Acts op e e (e.moves op) (e.perform op) := by
  cases op with
  | input i =>
    cases i with
    | tick delta => exact acts_tick hs delta
    | goOn => exact .one (.guide e.playback.guides_continueInput)
    | cancel =>
      exact (Acts.one (.guide (e.playback.guides_setSkip false))).trans
        (.one (.guide ((e.playback.setSkip false).guides_setAutoPlay false)))
    | skip on => exact .one (.guide (e.playback.guides_setSkip on))
    | auto on => exact .one (.guide (e.playback.guides_setAutoPlay on))
    | resume => exact .one (.guide e.playback.guides_resume)
    | select index => exact (e.selects index).acts
  | playFrom script index => exact (e.startsScript_playFrom script index).acts
  | playStart => exact e.startsScript_playStartScript.acts
  | playLabel script label => exact (e.startsScript_playFromLabel script label).acts
  | preload script => exact (e.startsScript_preloadAndPlay script).acts
  | stop => exact acts_stop e
  | playTransient name text scope => exact acts_playTransient e name text scope
  | takeStatus h =>
    have hruns : (e.transients.takeStatus h).2.runs = e.transients.runs := by
      unfold TransientRunner.takeStatus
      split <;> rfl
    exact .one (.aside rfl rfl hruns rfl)
  | cancelTransients => exact acts_cancelTransients e
  | resetState => exact .one (.rewrite .reset)
  | setDepth depth =>
    exact (Acts.shed (m := { e.playback.manager with stack := (e.stack.setDepth depth).1 })
      (List.drop_sublist _ _)).trans (.frame rfl rfl id rfl)
  | rollback target => exact (e.rollsBack _).acts
  | rollbackWhere p => exact (e.rollsBack _).acts
  | allowRollback allowed =>
    refine .one (.guide ⟨rfl, .inl rfl, id, fun y hy => ?_⟩)
    obtain ⟨x, hx, hxy⟩ := RollbackStack.mem_allowNewest hy
    exact ⟨x, .inl hx, hxy⟩
  | rewind target => exact acts_rewindTo hs target
  | save slot => exact acts_saveGame e slot
  | load slot => exact acts_loadGame ⟨hs.registry, hs.read⟩ rfl
  | quickSave => exact acts_saveGame e _
  | quickLoad => exact acts_loadGame ⟨hs.registry, hs.read⟩ rfl
  | delete slot => exact .one (.aside rfl rfl rfl rfl)
  | saveGlobal => exact acts_saveScope e .global _
  | loadGlobal => exact acts_loadScope e _ (.inl ⟨rfl, rfl⟩)
  | saveSettings => exact acts_saveScope e .settings _
  | loadSettings => exact acts_loadScope e _ (.inr ⟨rfl, rfl⟩)
  | loadScript name text => exact acts_replaceScript e _
  | reloadScript name => exact acts_replaceScript e _
  | write s => exact .one (.rewrite (.write rfl))
  | setScopes c => exact acts_withScopes e c
  | drain => exact .frame rfl rfl id rfl

end Engine

end Playhead
