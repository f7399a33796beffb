import Playhead.Proofs.Engine.Calm
import Playhead.Proofs.Motion.Recorded

/-!
Every snapshot that is retained records a game over the services there are, at a command of a script
that was held, whatever the host does.
-/

namespace Playhead

variable {σ : ServiceSet} {D : Document → Prop}

namespace Engine

variable {w : Leeway} {e u : Engine} {slot : String}

/-- Whether all scripts that are held are among some. -/
def HoldsOnly (D : Document → Prop) (e : Engine) : Prop :=
  e.playback.HoldsOnly D

/-- An engine that plays one of some scripts over services of a shape, with snapshots that were
recorded so. -/
structure Records (σ : ServiceSet) (D : Document → Prop) (e : Engine) : Prop where
  tame : e.Tame σ fun _ => True
  document : ∀ d, e.player.document = some d → D d
  snapshots : ∀ x ∈ e.stack.snapshots, x.Recorded σ D

theorem steps_turns (hs : Playback.Steps e.env e.playback) (h : Turns w e u) :
    Playback.Steps u.env u.playback := by
  have hread := (⟨hs.registry, hs.read⟩ : e.Read).turns h
  exact ⟨hread.registry, hread.scripts, hs.placed.turns h.turns⟩

theorem Records.turned (he : e.Records σ D) (h : Turns .none e u)
    (ht : u.Tame σ fun _ => True) (hD : u.HoldsOnly D)
    (hx : ∀ x ∈ u.stack.snapshots, x.Recorded σ D) : u.Records σ D :=
  ⟨ht, fun d hd => (h.turns.document id d hd).elim (he.document d) (hD d), hx⟩

/-- Whether all snapshots were recorded so, if no other scripts are held. -/
def KeepsRecords (σ : ServiceSet) (D : Document → Prop) (e : Engine) : Prop :=
  e.playback.KeepsRecords σ D

theorem Records.keeps (he : e.Records σ D) : e.KeepsRecords σ D := fun _ =>
  he.snapshots

theorem Records.eased (he : e.Records σ D) (h : Eases e u) : u.KeepsRecords σ D := by
  intro _ x hx
  obtain ⟨y, hy, hyx⟩ := h.sheds x hx
  exact (he.snapshots y hy).alike hyx

theorem HoldsOnly.turns (h : Turns .none e u) (hD : u.HoldsOnly D) : e.HoldsOnly D :=
  fun d hd => hD d (h.turns.held id hd)

theorem Records.playback (he : e.Records σ D) : e.playback.Records σ D :=
  ⟨he.tame.playback, he.document, he.snapshots⟩

theorem Records.playForward (he : e.Records σ D) (hs : Playback.Steps e.env e.playback)
    (index : Nat) : (e.playForward index).1.KeepsRecords σ D :=
  he.playback.fastForward hs he.tame.registry index

theorem RewindsWithin.records (he : e.Records σ D) (hs : Playback.Steps e.env e.playback)
    (h : e.RewindsWithin u) : u.KeepsRecords σ D := by
  cases h with
  | stays => exact he.keeps
  | forward index => exact he.playForward hs index
  | back position => exact he.eased (e.rollsBack_position position).eases
  | backAndForward position index =>
    have hturns := rollbackToPosition_turns (w := .none) ⟨hs.registry, hs.read⟩ position
    have htame := he.tame.rollbackToPosition position
    have hback := he.eased (e.rollsBack_position position).eases
    intro hD
    have hsteps := steps_turns hs hturns
    have hheld : (e.rollbackToPosition position).1.HoldsOnly D :=
      .turns (playForward_turns ⟨hsteps.registry, hsteps.read⟩ index) hD
    exact (he.turned hturns htame hheld (hback hheld)).playForward hsteps index hD

/-- A rewind that cannot be undone leaves history as it has become. -/
theorem stack_restoreCheckpoint {c : RewindCheckpoint} {err : EngineError}
    (h : e.restoreCheckpoint c = (u, .error err)) : u.stack = e.stack := by
  unfold restoreCheckpoint at h
  dsimp only at h
  split at h
  · rename_i s why hrestore
    cases h
    exact congrArg Bearings.stack (Playback.bearings_stop _ (.fault why.message))
  · cases h

theorem Rewinds.records (he : e.Records σ D) (hs : Playback.Steps e.env e.playback)
    (h : e.Rewinds u) : u.KeepsRecords σ D := by
  cases h with
  | within h => exact h.records he hs
  | @undone u c h hc =>
    generalize hrestore : u.restoreCheckpoint c = r
    obtain ⟨v, err | _⟩ := r
    · intro hD x hx
      have hstack : v.playback.manager.stack = u.playback.manager.stack :=
        stack_restoreCheckpoint hrestore
      have hheld : u.HoldsOnly D := .turns (restoreCheckpoint_turns hrestore) hD
      exact h.records he hs hheld x (hstack ▸ hx)
    · have hstack : v.stack = e.stack :=
        (congrArg Bearings.stack (restoreCheckpoint_bearings hrestore).1).trans
          (rewindCheckpoint_eq hc).2.2
      exact he.playback.keeps hstack

/-- Reading a script anew takes none from playback that is under way. -/
theorem document_replaceScript (e : Engine) (r : Except LibraryError (Document × ScriptLibrary)) :
    (e.replaceScript r).1.player.document = e.player.document := by
  unfold replaceScript
  split
  · rfl
  · rename_i d k
    unfold scriptReplaced
    dsimp only
    split
    · obtain ⟨v, hv⟩ : ∃ v : Engine, v =
        { e with playback := { e.playback with library := k } } := ⟨_, rfl⟩
      rw [← hv]
      have hstop := congrArg Bearings.document (v.cancelPlaybackScope.playback.bearings_stop
        .scriptReloaded)
      have hcancel := congrArg Bearings.document v.bearings_cancelPlaybackScope
      refine (hstop.trans hcancel).trans ?_
      rw [hv]
      rfl
    · rfl

/-- An operation that takes up no saved game keeps what was recorded, and records likewise. -/
theorem Records.perform (he : e.Records σ D) (hs : Playback.Steps e.env e.playback)
    {op : Operation} (hop : op.Keeps σ) (hloads : ¬op.Loads) (hD : (e.perform op).HoldsOnly D) :
    (e.perform op).Records σ D := by
  refine ⟨he.tame.perform hop (by cases op <;> exact trivial), fun d hd => ?_, ?_⟩
  · by_cases hrereads : op.Rereads
    · have hdocument : (e.perform op).player.document = e.player.document := by
        cases op with
        | loadScript name text | reloadScript name => exact document_replaceScript e _
        | _ => exact hrereads.elim
      exact he.document d (hdocument.symm.trans hd)
    · have hturns : Turns (.free False) e (e.perform op) :=
        perform_turns ⟨hs.registry, hs.read⟩ (within_free hrereads)
      exact (hturns.turns.document id d hd).elim (he.document d) (hD d)
  · by_cases hplays : op.Plays
    · cases op with
      | input i =>
        cases i with
        | tick delta => exact (he.playback.tick hs he.tame.registry delta hD).snapshots
        | _ => exact hplays.elim
      | rewind target => exact (e.rewinds target).records he hs hD
      | _ => exact hplays.elim
    · exact he.eased (e.perform_eases hplays hloads) hD

/-- The snapshots of a game that is taken up are those of the save. -/
theorem snapshots_loadGame (he : e.Read) (slot : String) :
    ∀ x ∈ (e.loadGame slot).1.stack.snapshots, x ∈ e.stack.snapshots ∨
      ∃ save record, e.Saved slot save record ∧ x ∈ save.rollback := by
  obtain ⟨k, hk⟩ := e.readGame_library slot
  have hsaved := (readGame_turns (w := .none) he slot).2
  unfold loadGame
  generalize e.readGame slot = r at hk hsaved ⊢
  obtain ⟨u, err | ⟨save, record, d⟩⟩ := r
  · rw [show u = _ from hk]
    exact fun x hx => .inl hx
  · have hsaved := (hsaved save record d rfl).1
    rw [show u = _ from hk]
    dsimp only
    obtain ⟨v, hv⟩ : ∃ v, v = (e.withLibrary k).cancelPlaybackScope := ⟨_, rfl⟩
    have hvs : v.stack = e.stack := by
      rw [hv]
      exact congrArg Bearings.stack (e.withLibrary k).bearings_cancelPlaybackScope
    have hstack := load_stack v.playback.manager v.services .game save.records
    rw [← hv]
    generalize v.playback.manager.load v.services .game save.records = r at hstack ⊢
    obtain ⟨m, s, err | _⟩ := r
    · intro x hx
      have hsame : m.stack = e.stack := hstack.trans hvs
      exact .inl (hsame ▸ hx)
    · intro x hx
      refine .inr ⟨save, record, hsaved, ?_⟩
      obtain ⟨l, hl⟩ : ∃ l, l = (if d.revision = record.revision then save.rollback else []) :=
        ⟨_, rfl⟩
      dsimp only at hx
      rw [← hl] at hx
      obtain ⟨t, ht⟩ : ∃ t, t = ((v.withManager m).withServices s).withStack (v.stack.replace l) :=
        ⟨_, rfl⟩
      have hend : (t.onPlayback (·.restorePosition d record.spot.index record.played
          record.waiting)).stack = v.stack.replace l := by
        have h := congrArg Bearings.stack
          (t.playback.bearings_restorePosition d record.spot.index record.played record.waiting)
        refine Eq.trans h ?_
        rw [ht]
        rfl
      rw [← ht, hend] at hx
      have hmem := RollbackStack.mem_replace hx
      rw [hl] at hmem
      split at hmem
      · exact hmem
      · cases hmem

theorem Records.loadGame (he : e.Records σ D) (hs : Playback.Steps e.env e.playback)
    (hu : u.Records σ D)
    (hw : ∀ map, e.saves.load e.files .game slot = .ok (some map) → u.Writes map)
    (hD : (e.loadGame slot).1.HoldsOnly D) : (e.loadGame slot).1.Records σ D := by
  have hread : e.Read := ⟨hs.registry, hs.read⟩
  have hturns : Turns (.free False) e (e.perform (.load slot)) :=
    perform_turns hread (within_free fun h => h)
  refine ⟨he.tame.loadGame slot,
    fun d hd => (hturns.turns.document id d hd).elim (he.document d) (hD d), fun x hx => ?_⟩
  rcases snapshots_loadGame hread slot x hx with hx | ⟨save, record, ⟨map, hload, hsave, -⟩, hx⟩
  · exact he.snapshots x hx
  · obtain ⟨-, -, -, -, hrollback⟩ := (hw map hload).eq_of_ofMap hsave
    rw [hrollback] at hx
    exact hu.snapshots x ((u.stack.tail_sublist _).subset hx)

/-- The states that come about while all scripts that are held are among some. Games are loaded only
if such states have saved them, and resources and files may change at any time. -/
inductive ArisesAmong (D : Document → Prop) (start : Engine → Prop) (allowed : Operation → Prop) :
    Engine → Prop where
  | start {e : Engine} (h : start e) (hD : e.HoldsOnly D) : ArisesAmong D start allowed e
  | perform {e : Engine} {op : Operation} (h : ArisesAmong D start allowed e) (ha : allowed op)
      (hop : ¬op.Loads) (hD : (e.perform op).HoldsOnly D) :
      ArisesAmong D start allowed (e.perform op)
  | load {e u : Engine} {slot : String} (h : ArisesAmong D start allowed e)
      (hu : ArisesAmong D start allowed u)
      (hw : ∀ map, e.saves.load e.files .game slot = .ok (some map) → u.Writes map)
      (hD : (e.loadGame slot).1.HoldsOnly D) : ArisesAmong D start allowed (e.loadGame slot).1
  | supply {e : Engine} (h : ArisesAmong D start allowed e) (resources : Resources)
      (files : FileTree) : ArisesAmong D start allowed (e.supply resources files)

variable {start : Engine → Prop} {allowed : Operation → Prop}

theorem ArisesAmong.arises (h : e.ArisesAmong D start allowed) : e.Arises start allowed := by
  induction h with
  | start h hD => exact .start h
  | perform h ha hop hD ih => exact .perform ih ha hop
  | load h hu hw hD ih ihu => exact .load ih ihu hw
  | supply h resources files ih => exact .supply ih resources files

/-- Without a word about the scripts, these are all states that come about. -/
theorem Arises.among (h : e.Arises start allowed) (hD : ∀ d, D d) :
    e.ArisesAmong D start allowed := by
  induction h with
  | start h => exact .start h fun d _ => hD d
  | perform h ha hop ih => exact .perform ih ha hop fun d _ => hD d
  | load h hu hw ih ihu => exact .load ih ihu hw fun d _ => hD d
  | supply h resources files ih => exact .supply ih resources files

theorem Arises.reachable (hstart : ∀ e, start e → e.Built) (h : e.Arises start allowed) :
    e.Reachable := by
  induction h with
  | start h =>
    obtain ⟨config, parts, hbuild⟩ := hstart _ h
    exact .build hbuild
  | perform h ha hop ih => exact ih.perform _
  | load h hu hw ih ihu => exact ih.perform (.load _)
  | supply h resources files ih => exact ih.supply resources files

theorem ArisesAmong.records {config : Config} {parts : EngineParts} {e₀ : Engine}
    (hbuild : build config parts = .ok e₀)
    (hcommands : ∀ h ∈ parts.commands, ∀ c t, h.begin c = .ok t → t.Tame)
    (h : e.ArisesAmong D (· = e₀) (·.Keeps e₀.services.shape)) :
    e.Records e₀.services.shape D := by
  have hsteps : ∀ {u : Engine}, u.ArisesAmong D (· = e₀) (·.Keeps e₀.services.shape) →
      Playback.Steps u.env u.playback := fun hu =>
    (hu.arises.reachable fun e he => ⟨config, parts, (show e = e₀ from he) ▸ hbuild⟩).steps
  induction h with
  | start h hD =>
    subst h
    have hfresh := fresh_build hbuild
    refine ⟨tame_build hbuild hcommands, fun d hd => ?_, fun x hx => ?_⟩
    · cases hfresh.document.symm.trans hd
    · cases hfresh.stack ▸ hx
  | perform h ha hop hD ih => exact ih.perform (hsteps h) ha hop hD
  | load h hu hw hD ih ihu => exact ih.loadGame (hsteps h) ihu hw hD
  | supply h resources files ih =>
    exact ⟨⟨ih.tame.registry, ih.tame.playback, ih.tame.runs, trivial⟩, ih.document, ih.snapshots⟩

/-- A run without loads goes on among the scripts that are held at its end, if only its first part
reads scripts anew. -/
theorem ArisesAmong.performAll {start : Engine → Prop} {allowed : Operation → Prop}
    (he : e.ArisesAmong D start allowed) (hread : e.Read) {l : List Operation}
    (hl : ∀ op ∈ l, allowed op ∧ ¬op.Loads ∧ ¬op.Rereads) (hD : (e.performAll l).HoldsOnly D) :
    (e.performAll l).ArisesAmong D start allowed := by
  induction l generalizing e with
  | nil => exact he
  | cons op rest ih =>
    obtain ⟨hop, hloads, hrereads⟩ := hl op List.mem_cons_self
    have hrest := fun op h => hl op (List.mem_cons_of_mem _ h)
    have hturns : Turns (.free False) e (e.perform op) :=
      perform_turns hread (within_free hrereads)
    have hread' := hread.turns hturns
    have htail : Turns (.free False) (e.perform op) ((e.perform op).performAll rest) :=
      performAll_turns hread' fun before op' after heq =>
        within_free (hrest op' (heq ▸ List.mem_append_right _ List.mem_cons_self)).2.2
    exact ih (.perform he hop hloads fun d hd => hD d (htail.turns.held id hd)) hread' hrest hD

end Engine

end Playhead
