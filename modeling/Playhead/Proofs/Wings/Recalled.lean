import Playhead.Proofs.Engine.Outcomes
import Playhead.Proofs.Wings.Engine

/-!
Cancelling the scope of playback commits nothing: the transient scripts tied to it end without
another step, the command in flight is dropped, and a new scope is opened.
-/

namespace Playhead

/-- Whether an event tells that a command of the main script started or a transient script ended. -/
def Event.isDeed : Event → Bool
  | .commandExecuted _ _ | .transientFinished _ _ => true
  | _ => false

namespace Playback

def deeds (p : Playback) : List Event :=
  p.scene.events.filter Event.isDeed

/-- A move that starts nothing, ends nothing and writes nothing. -/
structure Lulls (p q : Playback) : Prop where
  tether : q.tether = p.tether
  services : q.services = p.services
  deeds : q.deeds = p.deeds
  active : q.player.active = p.player.active

namespace Lulls

variable {p q r : Playback}

theorem refl (p : Playback) : Lulls p p :=
  ⟨rfl, rfl, rfl, rfl⟩

theorem trans (h : Lulls p q) (h' : Lulls q r) : Lulls p r :=
  ⟨h'.tether.trans h.tether, h'.services.trans h.services, h'.deeds.trans h.deeds,
    h'.active.trans h.active⟩

theorem emit (p : Playback) {event : Event} (h : event.isDeed = false) :
    Lulls p (p.emit event) := by
  refine ⟨rfl, rfl, ?_, rfl⟩
  unfold Playback.deeds Playback.emit
  rw [Scene.events_emit, List.filter_append, List.filter_singleton, h]
  exact List.append_nil _

theorem setSkip (p : Playback) (on : Bool) : Lulls p (p.setSkip on) := by
  unfold Playback.setSkip
  split
  · exact refl p
  · exact Lulls.trans (q := p.withCursor { p.cursor with skipping := on }) ⟨rfl, rfl, rfl, rfl⟩
      (emit _ rfl)

theorem endOfScript (p : Playback) (reason : StopReason) : Lulls p (p.endOfScript reason) :=
  Lulls.trans (q := p.withCursor { p.cursor with index := none, waiting := false })
    ⟨rfl, rfl, rfl, rfl⟩ (emit _ rfl)

theorem enterWait (p : Playback) : Lulls p p.enterWait :=
  Lulls.trans (q := { p with player := { p.player with
    cursor := { p.cursor with waiting := true }, waitElapsed := 0 } }) ⟨rfl, rfl, rfl, rfl⟩
    (emit _ rfl)

theorem presentChoices (p : Playback) : Lulls p p.presentChoices := by
  unfold Playback.presentChoices
  dsimp only
  split
  · exact ((setSkip p false).trans (enterWait _)).trans (emit _ rfl)
  · exact (enterWait p).trans (emit _ rfl)

theorem settleWaiting (p : Playback) (waiting : Bool) : Lulls p (p.settleWaiting waiting) := by
  unfold Playback.settleWaiting
  split
  · exact presentChoices p
  · split
    · exact enterWait p
    · exact refl p

theorem enterScript (p : Playback) (d : Document) : Lulls p (p.enterScript d) := by
  unfold Playback.enterScript
  split
  · exact refl p
  · exact emit p rfl

theorem cancelActive (h : p.player.active = none) : Lulls p p.cancelActive := by
  rw [cancelActive_of_idle h]
  exact refl p

theorem stop (h : p.player.active = none) (reason : StopReason) : Lulls p (p.stop reason) :=
  (cancelActive h).trans (Lulls.trans (q := { p.cancelActive with player :=
    { p.cancelActive.player with
      cursor := { p.cancelActive.cursor with index := none, waiting := false }
      halted := false
      fastForward := none } }) ⟨rfl, rfl, rfl, rfl⟩ (emit _ rfl))

theorem start (h : p.player.active = none) (d : Document) (i : Nat) :
    Lulls p (p.start d i) := by
  obtain ⟨q, hq⟩ : ∃ q, q = (p.cancelActive.setSkip false).emit (.play d.name) := ⟨_, rfl⟩
  have hplay : Lulls p q := by
    rw [hq]
    exact ((cancelActive h).trans (setSkip _ false)).trans (emit _ rfl)
  unfold Playback.start
  dsimp only
  rw [← hq]
  split
  · refine Lulls.trans ?_ (endOfScript _ .endOfScript)
    exact hplay.trans ⟨rfl, rfl, rfl, rfl⟩
  · exact hplay.trans ⟨rfl, rfl, rfl, rfl⟩

theorem restorePosition (h : p.player.active = none) (d : Document) (i played : Nat)
    (waiting : Bool) : Lulls p (p.restorePosition d i played waiting) := by
  obtain ⟨q, hq⟩ : ∃ q, q = (p.cancelActive.setSkip false).enterScript d := ⟨_, rfl⟩
  have henter : Lulls p q := by
    rw [hq]
    exact ((cancelActive h).trans (setSkip _ false)).trans (enterScript _ d)
  unfold Playback.restorePosition
  dsimp only
  rw [← hq]
  refine Lulls.trans ?_ (settleWaiting _ waiting)
  exact henter.trans ⟨rfl, rfl, rfl, rfl⟩

end Lulls

end Playback

/-- Whether a run ends with the scope of playback: its own is that scope, or below it, or was
cancelled before. -/
def Wings.linked (w : Wings) (r : TransientRun) : Bool :=
  decide (r.scope.Below w.tether.scope) || w.tether.scopes.isCancelled r.scope

namespace Engine

/-- A move of main playback that starts nothing, ends nothing and writes nothing. -/
structure Lulls (e u : Engine) : Prop where
  playback : e.playback.Lulls u.playback
  transients : u.transients = e.transients

/-- The scope of playback has been cancelled: the runs that are tied to it have ended where they
were, the others are as they were, nothing is in flight, and playback has a new scope. -/
structure Recalls (e u : Engine) : Prop where
  ended : ∀ r ∈ e.transients.runs, e.wings.linked r = true →
    u.transients.Ended r.handle .cancelled
  runs : u.transients.runs = e.transients.runs.filter (!e.wings.linked ·)
  deeds : u.playback.deeds = e.playback.deeds ++ (e.transients.runs.filter e.wings.linked).map
    fun r => .transientFinished r.handle .cancelled
  idle : u.player.active = none
  live : u.playback.scopes.isCancelled u.player.scope = false
  opened : e.playback.scopes.next ≤ u.player.scope.id
  apart : ∀ r ∈ u.transients.runs, ¬r.scope.Below u.player.scope

variable {e u v : Engine}

theorem Lulls.refl (e : Engine) : Lulls e e :=
  ⟨.refl _, rfl⟩

theorem Lulls.trans (h : Lulls e u) (h' : Lulls u v) : Lulls e v :=
  ⟨h.playback.trans h'.playback, h'.transients.trans h.transients⟩

theorem Lulls.wings (h : Lulls e u) : u.wings = e.wings := by
  unfold Engine.wings
  rw [h.transients, h.playback.tether]

theorem Lulls.of_playback {p : Playback} (h : e.playback.Lulls p) :
    Lulls e { e with playback := p } :=
  ⟨h, rfl⟩

/-- A recall with lulls before and after it. -/
theorem Recalls.within {x : Engine} (h : Lulls e u) (hr : Recalls u v) (h' : Lulls v x) :
    Recalls e x := by
  obtain ⟨hended, hruns, hdeeds, hidle, hlive, hopened, hapart⟩ := hr
  rw [h.wings, h.transients] at hended hruns hdeeds
  have hscopes : x.playback.scopes = v.playback.scopes := congrArg Tether.scopes h'.playback.tether
  have hscope : x.player.scope = v.player.scope := congrArg Tether.scope h'.playback.tether
  have hnext : u.playback.scopes = e.playback.scopes := congrArg Tether.scopes h.playback.tether
  rw [hnext] at hopened
  refine ⟨fun r hr hlinked => ?_, h'.transients ▸ hruns, ?_, ?_, ?_, hscope ▸ hopened, ?_⟩
  · rw [h'.transients]
    exact hended r hr hlinked
  · rw [h'.playback.deeds, hdeeds, h.playback.deeds]
  · exact h'.playback.active.trans hidle
  · rw [hscopes, hscope]
    exact hlive
  · rw [h'.transients, hscope]
    exact hapart

/-- Other services change nothing of it. -/
theorem Recalls.withServices (h : Recalls e u) (s : ServiceSet) :
    Recalls e (u.withServices s) :=
  ⟨h.ended, h.runs, h.deeds, h.idle, h.live, h.opened, h.apart⟩

/-- What is true of the states that built-in commands lead to. -/
structure Homely (e : Engine) : Prop where
  regular : e.wings.Regular
  active : ∀ a, e.player.active = some a → ¬a.task.IsHost

theorem Unaided.homely (h : e.Unaided) : e.Homely :=
  ⟨h.regular.2, fun _ ha => h.active ha⟩

theorem Homely.lulls (he : e.Homely) (h : Lulls e u) : u.Homely :=
  ⟨h.wings ▸ he.regular, fun a ha => he.active a (h.playback.active ▸ ha)⟩

theorem player_cancelActive (p : Playback) :
    p.cancelActive.player = { p.player with active := none } ∧
      p.cancelActive.manager = p.manager ∧ p.cancelActive.scene.newest = p.scene.newest := by
  unfold Playback.cancelActive
  split
  · rename_i h
    refine ⟨?_, rfl, rfl⟩
    rw [← h]
  · exact ⟨rfl, rfl, rfl⟩

/-- Dropping the command in flight leaves no trace. -/
theorem Homely.cancelActive (he : e.Homely) :
    e.playback.cancelActive.services = e.playback.services ∧
      e.playback.cancelActive.deeds = e.playback.deeds ∧
      e.playback.cancelActive.player.active = none := by
  unfold Playback.cancelActive
  split
  · rename_i ha
    exact ⟨rfl, rfl, ha⟩
  · rename_i a ha
    exact ⟨Task.cancel_eq (he.active a ha) _, rfl, rfl⟩

/-- When runs end in cancelled scopes, these are the linked ones. -/
theorem Homely.reaps (he : e.Homely) {c : Cancellations}
    (hc : ∀ r, c.isCancelled r.scope = e.wings.linked r) (s : Scene) :
    (∀ r ∈ e.transients.runs, e.wings.linked r = true →
      (e.transients.reapCancelled c s).1.Ended r.handle .cancelled) ∧
    (e.transients.reapCancelled c s).1.runs = e.transients.runs.filter (!e.wings.linked ·) ∧
    (e.transients.reapCancelled c s).2 = s.emitAll ((e.transients.runs.filter
      e.wings.linked).map fun r => .transientFinished r.handle .cancelled) ∧
    ∀ r ∈ (e.transients.reapCancelled c s).1.runs, ¬r.scope.Below e.playback.scopes.root.1 := by
  have hdrop : ∀ r ∈ e.transients.runs, ∀ s, r.abandon s = s :=
    fun r hr => (he.regular.runs r hr).1.abandon_eq
  obtain ⟨hruns, hscene⟩ :=
    TransientRunner.visit_reap hdrop c { e.transients with runs := [] } s
  simp only [hc] at hruns hscene
  refine ⟨fun r hr hlinked => ?_, hruns, hscene, fun r hr => ?_⟩
  · exact TransientRunner.visit_reap_ended (t := { e.transients with runs := [] }) s
      he.regular.numbered hr ((hc r).trans hlinked)
  · have hmem : r ∈ e.transients.runs.filter (!e.wings.linked ·) := by
      rw [← List.nil_append (e.transients.runs.filter _), ← hruns]
      exact hr
    exact (he.regular.runs r (List.mem_filter.1 hmem).1).2.not_below_root

/-- The end of runs is no part of the plot. -/
theorem plot_emitAll (s : Scene) (l : List TransientRun) :
    (s.emitAll (l.map fun r => .transientFinished r.handle .cancelled)).events.filter
      Event.isPlot = s.events.filter Event.isPlot := by
  have hnone : (l.map fun r => Event.transientFinished r.handle .cancelled).filter
      Event.isPlot = [] := by
    refine List.filter_eq_nil_iff.2 fun event h => ?_
    obtain ⟨r, -, rfl⟩ := List.mem_map.1 h
    exact Bool.false_ne_true
  rw [Scene.events_emitAll, List.filter_append, hnone, List.append_nil]

theorem deeds_emitAll (s : Scene) (l : List TransientRun) :
    (s.emitAll (l.map fun r => .transientFinished r.handle .cancelled)).events.filter
      Event.isDeed = s.events.filter Event.isDeed ++
        l.map fun r => .transientFinished r.handle .cancelled := by
  rw [Scene.events_emitAll, List.filter_append]
  congr 1
  rw [List.filter_eq_self]
  intro event h
  obtain ⟨r, -, rfl⟩ := List.mem_map.1 h
  rfl

/-- The scope of playback is cancelled after the command in flight was dropped, and a new one is
opened after the linked runs have ended. -/
theorem cancelPlaybackScope_reaps {c : Cancellations}
    (hc : c = e.playback.scopes.cancel e.player.scope) :
    e.cancelPlaybackScope = { e with
      transients := (e.transients.reapCancelled c e.playback.cancelActive.scene).1
      playback := { e.playback.cancelActive with
        player := { e.playback.cancelActive.player with scope := c.root.1 }
        scene := (e.transients.reapCancelled c e.playback.cancelActive.scene).2
        scopes := c.root.2 } } := by
  have hscopes : e.playback.cancelActive.scopes = e.playback.scopes :=
    congrArg Tether.scopes e.playback.tether_cancelActive
  have hscope : e.playback.cancelActive.player.scope = e.player.scope :=
    congrArg Tether.scope e.playback.tether_cancelActive
  rw [hc, ← hscopes, ← hscope]
  rfl

theorem Homely.cancelPlaybackScope (he : e.Homely) :
    Recalls e e.cancelPlaybackScope ∧ e.cancelPlaybackScope.services = e.services := by
  obtain ⟨hservices, hdeeds, hidle⟩ := he.cancelActive
  obtain ⟨c, hc⟩ : ∃ c, c = e.playback.scopes.cancel e.player.scope := ⟨_, rfl⟩
  have hgrows : e.playback.scopes.Grows c := hc ▸ e.playback.scopes.grows_cancel _
  have hproper : c.Proper := hc ▸ he.regular.proper.cancel he.regular.known
  obtain ⟨hended, hruns, hscene, hapart⟩ := he.reaps
    (fun r => hc ▸ Cancellations.isCancelled_cancel _ _ _) e.playback.cancelActive.scene
  rw [cancelPlaybackScope_reaps hc]
  refine ⟨⟨hended, hruns, ?_, hidle, hproper.isCancelled_root, hgrows.next, hc ▸ hapart⟩, ?_⟩
  · show List.filter _ (Scene.events (TransientRunner.reapCancelled _ _ _).2) = _
    rw [hscene, deeds_emitAll]
    exact congrArg (· ++ _) hdeeds
  · show Scene.services (TransientRunner.reapCancelled _ _ _).2 = _
    rw [hscene]
    exact hservices

theorem withLibrary_lulls (e : Engine) (k : ScriptLibrary) : Lulls e (e.withLibrary k) :=
  .of_playback ⟨rfl, rfl, rfl, rfl⟩

theorem loadDocument_lulls (e : Engine) (name : String) : Lulls e (e.loadDocument name).1 := by
  obtain ⟨k, hk⟩ := e.loadDocument_withLibrary name
  exact hk ▸ e.withLibrary_lulls k

theorem emit_lulls (e : Engine) {event : Event} (h : event.isDeed = false) :
    Lulls e (e.emit event) :=
  .of_playback (.emit e.playback h)

theorem ReadsAhead.lulls (h : e.ReadsAhead u) : Lulls e u := by
  induction h with
  | refl => exact .refl e
  | load _ name ih => exact ih.trans (loadDocument_lulls _ name)
  | progress _ script loaded total ih => exact ih.trans (emit_lulls _ rfl)
  | fault _ message ih => exact ih.trans (emit_lulls _ rfl)

/-- A script that begins does so where nothing was done but reading. -/
theorem StartsScript.exists_begins (h : e.StartsScript (u, .ok ())) :
    ∃ v d index, Lulls e v ∧ u = v.beginPlayback d index := by
  cases h with
  | @begins script w v d hload h index =>
    have hread := e.loadDocument_lulls script
    rw [hload] at hread
    exact ⟨v, d, index, hread.trans h.lulls, rfl⟩

/-- A recall after which the services are as they were. -/
def RecallsOnly (e u : Engine) : Prop :=
  Recalls e u ∧ u.services = e.services

theorem RecallsOnly.within {x : Engine} (h : Lulls e u) (hr : RecallsOnly u v) (h' : Lulls v x) :
    RecallsOnly e x :=
  ⟨hr.1.within h h', (h'.playback.services.trans hr.2).trans h.playback.services⟩

theorem Homely.beginPlayback (he : e.Homely) (d : Document) (i : Nat) :
    RecallsOnly e (e.beginPlayback d i) := by
  have hrecalls := he.cancelPlaybackScope
  have hclear : Lulls e.cancelPlaybackScope e.cancelPlaybackScope.clearRollback :=
    .of_playback ⟨rfl, rfl, rfl, rfl⟩
  have hidle : e.cancelPlaybackScope.clearRollback.player.active = none := hrecalls.1.idle
  exact RecallsOnly.within (.refl e) hrecalls (hclear.trans (.of_playback (.start hidle d i)))

theorem Homely.stop (he : e.Homely) (hd : e.player.document.isSome) : RecallsOnly e e.stop := by
  have hrecalls := he.cancelPlaybackScope
  unfold Engine.stop
  rw [if_neg (by simpa [Option.isSome_iff_ne_none] using hd)]
  dsimp only
  refine RecallsOnly.within (.refl e) hrecalls ?_
  split
  · exact .of_playback ⟨rfl, rfl, rfl, rfl⟩
  · refine Lulls.trans (.of_playback (.stop hrecalls.1.idle .requested)) ?_
    exact .of_playback ⟨rfl, rfl, rfl, rfl⟩

theorem Homely.startsScript (he : e.Homely) {r : Engine × Except EngineError Unit}
    (hr : e.StartsScript r) (h : r.2 = .ok ()) : RecallsOnly e r.1 := by
  obtain ⟨u, done⟩ := r
  dsimp only at h
  subst h
  obtain ⟨v, d, index, hv, rfl⟩ := hr.exists_begins
  exact ((he.lulls hv).beginPlayback d index).within hv (.refl _)

theorem Homely.playFrom (he : e.Homely) {script : String} {index : Nat} :
    (e.playFrom script index).2 = .ok () → RecallsOnly e (e.playFrom script index).1 :=
  he.startsScript (e.startsScript_playFrom script index)

theorem Homely.playStart (he : e.Homely) :
    e.playStartScript.2 = .ok () → RecallsOnly e e.playStartScript.1 :=
  he.startsScript e.startsScript_playStartScript

theorem Homely.playFromLabel (he : e.Homely) {script label : String} :
    (e.playFromLabel script label).2 = .ok () →
      RecallsOnly e (e.playFromLabel script label).1 :=
  he.startsScript (e.startsScript_playFromLabel script label)

theorem Homely.preloadAndPlay (he : e.Homely) {script : String} :
    (e.preloadAndPlay script).2 = .ok () → RecallsOnly e (e.preloadAndPlay script).1 :=
  he.startsScript (e.startsScript_preloadAndPlay script)

theorem Homely.rollbackTo (he : e.Homely) {found : Except Unavailable Nat} {spot : Spot}
    (h : (e.rollbackTo found).2 = .ok (.completed spot)) : Recalls e (e.rollbackTo found).1 ∧
      ∃ x ∈ e.stack.snapshots, x.spot = spot ∧
        StateManager.restore e.services x = ((e.rollbackTo found).1.services, .ok ()) := by
  generalize hback : e.rollbackTo found = r at h ⊢
  cases hback ▸ e.rollsBack found with
  | unavailable k why => cases h
  | unread hfound hx why => cases h
  | @restore position x k d hfound hx hload hrevision hindex =>
    have hlulls : Lulls e ((e.withLibrary k).emit (.rollbackStarted
        (e.withLibrary k).cursor.spot? x.spot)) := by
      exact (e.withLibrary_lulls k).trans (emit_lulls _ rfl)
    obtain ⟨hrecalls, hservices⟩ := (he.lulls hlulls).cancelPlaybackScope
    obtain ⟨v, hv⟩ : ∃ v, v = ((e.withLibrary k).emit (.rollbackStarted
        (e.withLibrary k).cursor.spot? x.spot)).cancelPlaybackScope := ⟨_, rfl⟩
    unfold Engine.restoreSnapshot at h ⊢
    dsimp only at h ⊢
    rw [← hv] at h hrecalls hservices ⊢
    have hsame : (v.onPlayback (·.setSynchronizing true)).services = e.services :=
      hservices.trans hlulls.playback.services
    have hbegun : Recalls e (v.onPlayback (·.setSynchronizing true)) :=
      hrecalls.within hlulls (.of_playback ⟨rfl, rfl, rfl, rfl⟩)
    rw [hsame] at h ⊢
    generalize v.onPlayback (·.setSynchronizing true) = u at hbegun h ⊢
    generalize hrestore : StateManager.restore e.services x = y at h ⊢
    obtain ⟨s, err | _⟩ := y
    · cases h
    · cases h
      obtain ⟨w, hw⟩ : ∃ w, w = (u.withServices s).withStack (u.stack.truncateAfter position) :=
        ⟨_, rfl⟩
      have hwritten : Recalls e w := by
        rw [hw]
        exact (hbegun.withServices s).within (.refl e) (.of_playback ⟨rfl, rfl, rfl, rfl⟩)
      have hservices : w.services = s := by
        rw [hw]
        rfl
      have hplaced : Lulls w ((w.onPlayback (·.restorePosition d x.spot.index x.played
          x.waiting)).onPlayback (·.setSynchronizing false)) :=
        Lulls.trans (.of_playback (.restorePosition hwritten.idle d x.spot.index x.played x.waiting))
          (.of_playback ⟨rfl, rfl, rfl, rfl⟩)
      dsimp only
      rw [← hw]
      refine ⟨hwritten.within (.refl e) hplaced, x, List.mem_of_getElem? hx, rfl, ?_⟩
      rw [show ((w.onPlayback (·.restorePosition d x.spot.index x.played
        x.waiting)).onPlayback (·.setSynchronizing false)).services = s from
        hplaced.playback.services.trans hservices]
      exact hrestore


theorem Homely.loadGame (he : e.Homely) {slot : String} (h : (e.loadGame slot).2 = .ok ()) :
    Recalls e (e.loadGame slot).1 ∧ ∃ records : StateMap,
      records.apply .game e.services = ((e.loadGame slot).1.services, .ok ()) := by
  obtain ⟨k, hk⟩ := e.readGame_library slot
  have hread : Lulls e (e.readGame slot).1 := hk ▸ e.withLibrary_lulls k
  unfold Engine.loadGame at h ⊢
  generalize e.readGame slot = r at hread h ⊢
  obtain ⟨u, err | ⟨save, record, d⟩⟩ := r
  · cases h
  · obtain ⟨hrecalls, hservices⟩ := (he.lulls hread).cancelPlaybackScope
    dsimp only at hread hrecalls hservices h ⊢
    generalize u.cancelPlaybackScope = v at hrecalls hservices h ⊢
    have hsame : v.services = e.services := hservices.trans hread.playback.services
    unfold StateManager.load at h ⊢
    rw [hsame] at h ⊢
    generalize happly : save.records.apply .game e.services = y at h ⊢
    obtain ⟨s, err | _⟩ := y
    · cases h
    · dsimp only at h ⊢
      generalize v.playback.manager.remember .game save.records = m
      obtain ⟨w, hw⟩ : ∃ w, w = ((v.withManager m).withServices s).withStack (v.stack.replace
        (if d.revision = record.revision then save.rollback else [])) := ⟨_, rfl⟩
      have hwritten : Recalls e w := by
        rw [hw]
        exact (((hrecalls.within hread (.of_playback (p := { v.playback with manager := m })
          ⟨rfl, rfl, rfl, rfl⟩)).withServices s).within (.refl e)
          (.of_playback ⟨rfl, rfl, rfl, rfl⟩))
      have hservices : w.services = s := by
        rw [hw]
        rfl
      have hplaced := Playback.Lulls.restorePosition hwritten.idle d record.spot.index
        record.played record.waiting
      rw [← hw]
      refine ⟨hwritten.within (.refl e) (.of_playback hplaced), save.records, happly.trans ?_⟩
      exact congrArg (·, Except.ok ()) (hplaced.services.trans hservices).symm

/-- A script that is read anew stops playback only by cancelling its scope. -/
theorem Homely.replaceScript (he : e.Homely)
    {read : Except LibraryError (Document × ScriptLibrary)} (hi : e.cursor.index ≠ none)
    (h : (e.replaceScript read).1.cursor.index = none) :
    RecallsOnly e (e.replaceScript read).1 := by
  unfold Engine.replaceScript at h ⊢
  split at h
  · exact absurd h hi
  · rename_i d library
    have hread : Lulls e { e with playback := { e.playback with library := library } } :=
      e.withLibrary_lulls library
    dsimp only at h ⊢
    have hrunning : ({ e with playback := { e.playback with library := library } } :
        Engine).cursor.index ≠ none := hi
    have hlulled := he.lulls hread
    generalize ({ e with playback := { e.playback with library := library } } : Engine) = u
      at hread hlulled hrunning h ⊢
    have hrecalls := hlulled.cancelPlaybackScope
    unfold Engine.scriptReplaced at h ⊢
    dsimp only at h ⊢
    split at h
    · rename_i hstops
      rw [if_pos hstops]
      exact RecallsOnly.within hread hrecalls (.of_playback (.stop hrecalls.1.idle _))
    · exact absurd h hrunning

/-- What a tick does when the scope of playback was cancelled: linked runs end before any run has
its turn, playback halts where it is, and can be resumed there. -/
structure Halts (e : Engine) (delta : Nanoseconds) : Prop where
  ok : (e.tick delta).2 = .ok ()
  cursor : (e.tick delta).1.cursor = e.cursor
  stack : (e.tick delta).1.stack = e.stack
  plot : (e.tick delta).1.playback.plot = e.playback.plot ++ [.stopped .cancelled]
  halted : (e.tick delta).1.player.halted = true
  idle : (e.tick delta).1.player.active = none
  live : (e.tick delta).1.playback.scopes.isCancelled (e.tick delta).1.player.scope = false
  opened : e.playback.scopes.next ≤ (e.tick delta).1.player.scope.id
  ended : ∀ r ∈ e.transients.runs, e.wings.linked r = true →
    (e.tick delta).1.transients.Ended r.handle .cancelled
  turns : ∃ u, RecallsOnly e u ∧
    u.transients.tick e.registry u.playback.scopes u.playback.scene delta
      e.config.player.maxCommands = ((e.tick delta).1.transients, (e.tick delta).1.playback.scene)
  resumes : (e.tick delta).1.resume.2 = true ∧ (e.tick delta).1.resume.1.cursor = e.cursor

/-- No run presents options, or starts or stops the main script. -/
theorem plot_tick (registry : Registry) (t : TransientRunner) (c : Cancellations) (s : Scene)
    (delta : Nanoseconds) (budget : Nat) :
    (t.tick registry c s delta budget).2.events.filter Event.isPlot =
      s.events.filter Event.isPlot := by
  have hemit : ∀ (s' : Scene) (event : Event), event.isPlot = false →
      s'.events.filter Event.isPlot = s.events.filter Event.isPlot →
        (s'.emit event).events.filter Event.isPlot = s.events.filter Event.isPlot := by
    intro s' event hplot hs
    rw [Scene.events_emit, List.filter_append, hs, List.filter_singleton, hplot]
    exact List.append_nil _
  refine (TransientRunner.visitAll_keeps (K := fun _ => True)
    (P := fun s' => s'.events.filter Event.isPlot = s.events.filter Event.isPlot)
    (fun r s' _ hs => ⟨trivial, ?_⟩) (fun s' h status => hemit s' _ rfl)
    (fun _ _ => trivial) rfl).2
  exact (TransientRun.kept_scene (Q := fun s' => s'.events.filter Event.isPlot =
    s.events.filter Event.isPlot) (fun _ _ h => h) fun s' spot message => hemit s' _ rfl).advance
    (r := r) hs _ delta budget

/-- Runs below a scope of playback that was cancelled are in cancelled scopes. -/
theorem Homely.linked_eq (he : e.Homely)
    (hc : e.playback.scopes.isCancelled e.player.scope = true) (r : TransientRun) :
    e.playback.scopes.isCancelled r.scope = e.wings.linked r := by
  have hroot : e.player.scope.above = [] := he.regular.root
  unfold Wings.linked
  cases hr : e.playback.scopes.isCancelled r.scope with
  | true => exact (Bool.or_eq_true_iff.2 (.inr hr)).symm
  | false =>
    refine (Bool.or_eq_false_iff.2 ⟨decide_eq_false fun hbelow => ?_, hr⟩).symm
    obtain ⟨n, hn, hmem⟩ := Cancellations.isCancelled_iff.1 hc
    rw [hroot] at hn
    cases List.mem_singleton.1 hn
    exact Bool.false_ne_true (hr.symm.trans (Cancellations.isCancelled_iff.2 ⟨_, hbelow, hmem⟩))

theorem tick_interrupts (hrun : e.player.isRunning = true)
    (hc : e.playback.scopes.isCancelled e.player.scope = true) (delta : Nanoseconds) :
    e.playback.tick e.env delta = (e.playback.interrupt, .ok ()) := by
  have hrunning : ¬(!e.playback.player.isRunning) = true := by
    rw [show e.playback.player.isRunning = true from hrun]
    exact Bool.false_ne_true
  unfold Playback.tick
  rw [if_neg hrunning]
  exact if_pos hc

/-- An interruption drops the command in flight, opens a scope and halts. -/
theorem Homely.interrupt (he : e.Homely) :
    e.playback.interrupt.player = { e.player with
      active := none
      halted := true
      scope := e.playback.scopes.root.1 } ∧
    e.playback.interrupt.scopes = e.playback.scopes.root.2 ∧
    e.playback.interrupt.manager = e.playback.manager ∧
    e.playback.interrupt.services = e.playback.services ∧
    e.playback.interrupt.scene.events = e.playback.scene.events ++ [.stopped .cancelled] := by
  obtain ⟨hservices, -, -⟩ := he.cancelActive
  obtain ⟨hplayer, hmanager, hnewest⟩ := player_cancelActive e.playback
  have hscopes : e.playback.cancelActive.scopes = e.playback.scopes :=
    congrArg Tether.scopes e.playback.tether_cancelActive
  refine ⟨?_, ?_, hmanager, hservices, ?_⟩
  · show { e.playback.cancelActive.player with
      scope := e.playback.cancelActive.scopes.root.1, halted := true } = _
    rw [hplayer, hscopes]
    rfl
  · exact congrArg (fun c : Cancellations => c.root.2) hscopes
  · show ((e.playback.cancelActive.scene).emit _).events = _
    rw [Scene.events_emit]
    exact congrArg (fun l : List Event => l.reverse ++ _) hnewest

/-- Between the turn of main playback and those of the runs, all that is linked has ended. -/
theorem Homely.exists_halted (he : e.Homely) (hrun : e.player.isRunning = true)
    (hc : e.playback.scopes.isCancelled e.player.scope = true) (delta : Nanoseconds) :
    ∃ u, RecallsOnly e u ∧ u.transients.Numbered ∧
      u.player = { e.player with
        active := none
        halted := true
        scope := e.playback.scopes.root.1 } ∧
      u.stack = e.stack ∧ u.playback.plot = e.playback.plot ++ [.stopped .cancelled] ∧
      e.tick delta = ({ u with
        transients := (u.transients.tick e.registry u.playback.scopes u.playback.scene delta
          e.config.player.maxCommands).1
        playback := { u.playback with scene := (u.transients.tick e.registry u.playback.scopes
          u.playback.scene delta e.config.player.maxCommands).2 } }, .ok ()) := by
  obtain ⟨hplayer, hscopes, hmanager, hservices, hevents⟩ := he.interrupt
  have hplay := tick_interrupts hrun hc delta
  generalize e.playback.interrupt = p at hplayer hscopes hmanager hservices hevents hplay
  obtain ⟨c, hcs⟩ : ∃ c, c = e.playback.scopes.root.2 := ⟨_, rfl⟩
  rw [← hcs] at hscopes
  have hscope : p.player.scope = e.playback.scopes.root.1 := congrArg Player.scope hplayer
  obtain ⟨hended, hruns, hscene, hapart⟩ := he.reaps
    (c := c) (fun r => hcs ▸ he.linked_eq hc r) p.scene
  have hnumbered : (e.transients.reapCancelled c p.scene).1.Numbered :=
    TransientRunner.visit_numbered (t := { e.transients with runs := [] })
      (fun r s => (TransientRunner.reap_same c r s).1) p.scene he.regular.numbered
  generalize hreap : e.transients.reapCancelled c p.scene = x
    at hended hruns hscene hapart hnumbered
  obtain ⟨t, s⟩ := x
  dsimp only at hended hruns hscene hapart hnumbered
  refine ⟨{ e with transients := t, playback := { p with scene := s } },
    ⟨⟨hended, hruns, ?_, congrArg Player.active hplayer, ?_, ?_, hscope ▸ hapart⟩, ?_⟩,
    hnumbered, hplayer, congrArg StateManager.stack hmanager, ?_, ?_⟩
  · show s.events.filter _ = _
    rw [hscene, deeds_emitAll, hevents, List.filter_append]
    exact congrArg (· ++ _) (List.append_nil _)
  · show p.scopes.isCancelled p.player.scope = false
    rw [hscopes, hcs, hscope]
    exact he.regular.proper.isCancelled_root
  · show e.playback.scopes.next ≤ p.player.scope.id
    rw [hscope]
    exact Nat.le_refl _
  · show s.services = _
    rw [hscene]
    exact hservices
  · show s.events.filter _ = _
    rw [hscene, plot_emitAll, hevents, List.filter_append]
    rfl
  · unfold Engine.tick Engine.reapCancelled
    rw [hplay]
    dsimp only
    rw [hscopes, hreap]
    rfl

theorem Homely.tick (he : e.Homely) (hrun : e.player.isRunning = true)
    (hc : e.playback.scopes.isCancelled e.player.scope = true) (delta : Nanoseconds) :
    e.Halts delta := by
  obtain ⟨u, hrecalls, hnumbered, hplayer, hstack, hplot, htick⟩ :=
    he.exists_halted hrun hc delta
  have hcursor : u.cursor = e.cursor := by
    show u.player.cursor = _
    rw [hplayer]
    rfl
  have hresumes : u.player.resume.2 = true ∧ u.player.resume.1.cursor = e.cursor := by
    unfold Player.isRunning at hrun
    simp only [Bool.and_eq_true, Bool.not_eq_true'] at hrun
    obtain ⟨⟨hdocument, -⟩, hstopped⟩ := hrun
    have hstays : ¬(u.player.document.isNone || !u.player.halted ||
        u.player.cursor.isStopped) = true := by
      rw [hplayer]
      simp [Option.isSome_iff_ne_none.1 hdocument, hstopped]
    unfold Player.resume
    rw [if_neg hstays]
    exact ⟨rfl, hcursor⟩
  have hover : ∀ r ∈ e.transients.runs, e.wings.linked r = true →
      (u.transients.tick e.registry u.playback.scopes u.playback.scene delta
        e.config.player.maxCommands).1.Ended r.handle .cancelled := fun r hr hlinked =>
    TransientRunner.visit_ended (t := { u.transients with runs := [] })
      (fun r s => (TransientRun.advance_same e.registry _ r s delta _).1) u.playback.scene
      hnumbered (hrecalls.1.ended r hr hlinked)
  refine ⟨congrArg Prod.snd htick, ?_, ?_, ?_, ?_, ?_, ?_, ?_, ?_, ⟨u, hrecalls, ?_⟩, ?_⟩ <;>
    rw [htick]
  · exact hcursor
  · exact hstack
  · exact (plot_tick _ _ _ _ _ _).trans hplot
  · exact congrArg Player.halted hplayer
  · exact hrecalls.1.idle
  · exact hrecalls.1.live
  · exact hrecalls.1.opened
  · exact hover
  · exact hresumes

/-- What is true of each call that cancels the scope of playback, and of the tick after the host has
cancelled it. -/
structure CommitsNothing (e : Engine) : Prop where
  /-- A rollback to whatever was looked for and found. Nothing but the snapshot is written. -/
  rollback : ∀ found spot, (e.rollbackTo found).2 = .ok (.completed spot) →
    Recalls e (e.rollbackTo found).1 ∧ ∃ x ∈ e.stack.snapshots, x.spot = spot ∧
      StateManager.restore e.services x = ((e.rollbackTo found).1.services, .ok ())
  play : ∀ script index, (e.playFrom script index).2 = .ok () →
    RecallsOnly e (e.playFrom script index).1
  playStart : e.playStartScript.2 = .ok () → RecallsOnly e e.playStartScript.1
  playLabel : ∀ script label, (e.playFromLabel script label).2 = .ok () →
    RecallsOnly e (e.playFromLabel script label).1
  preload : ∀ script, (e.preloadAndPlay script).2 = .ok () →
    RecallsOnly e (e.preloadAndPlay script).1
  stop : e.player.document.isSome → RecallsOnly e e.stop
  /-- Nothing but the saved records is written. -/
  load : ∀ slot, (e.loadGame slot).2 = .ok () → Recalls e (e.loadGame slot).1 ∧
    ∃ records : StateMap,
      records.apply .game e.services = ((e.loadGame slot).1.services, .ok ())
  /-- A script that is read anew, from a text or from its source, and no longer plays. -/
  reload : ∀ read, e.cursor.index ≠ none → (e.replaceScript read).1.cursor.index = none →
    RecallsOnly e (e.replaceScript read).1
  tick : ∀ delta, e.player.isRunning = true →
    e.playback.scopes.isCancelled e.player.scope = true → e.Halts delta

/-- In every state that built-in commands lead to, cancelling the scope of playback commits
nothing. -/
theorem Unaided.commitsNothing (h : e.Unaided) : e.CommitsNothing :=
  have he := h.homely
  { rollback := fun _ _ => he.rollbackTo
    play := fun _ _ => he.playFrom
    playStart := he.playStart
    playLabel := fun _ _ => he.playFromLabel
    preload := fun _ => he.preloadAndPlay
    stop := he.stop
    load := fun _ => he.loadGame
    reload := fun _ => he.replaceScript
    tick := fun delta hrun hc => he.tick hrun hc delta }

/-- A wait is in flight, and one transient script runs in the scope of playback and one in a scope
of its own, when the scope of playback is cancelled from outside. -/
def untilCancelled : List Operation :=
  [.loadScript "tale" "@wait 10\n@print b\n", .playFrom "tale" 0, .input (.tick 0),
    .playTransient "tied" "@wait 5\n@print tied\n" ⟨1, []⟩, .setScopes ⟨3, [0]⟩,
    .playTransient "free" "@wait 5\n@print free\n" ⟨2, []⟩, .input (.tick 0),
    .setScopes ⟨3, [1, 0]⟩]

/-- With the next tick the script that was tied to playback ends, and the wait can be resumed where
it was. -/
theorem commitsNothing_asides : ∃ e : Engine, e.Unaided ∧ e.player.active.isSome ∧
    e.transients.runs.map e.wings.linked = [true, false] ∧ e.Halts 0 ∧
    (e.tick 0).1.transients.status? ⟨1⟩ = some .cancelled ∧
    (e.tick 0).1.transients.status? ⟨2⟩ = some .running ∧
    (e.tick 0).1.resume.1.cursor.index = some 0 := by
  have hrun : ((build {} {}).toOption.any fun e₀ =>
      e₀.ProperAll untilCancelled ∧ (e₀.performAll untilCancelled).player.active.isSome = true ∧
      (e₀.performAll untilCancelled).transients.runs.map
        (e₀.performAll untilCancelled).wings.linked = [true, false] ∧
      (e₀.performAll untilCancelled).player.isRunning = true ∧
      (e₀.performAll untilCancelled).playback.scopes.isCancelled
        (e₀.performAll untilCancelled).player.scope = true ∧
      (e₀.performAll untilCancelled).cursor.index = some 0 ∧
      ((e₀.performAll untilCancelled).tick 0).1.transients.status? ⟨1⟩ = some .cancelled ∧
      ((e₀.performAll untilCancelled).tick 0).1.transients.status? ⟨2⟩ = some .running) = true := by
    decide +kernel
  obtain ⟨e₀, he₀, hcheck⟩ := (Option.any_eq_true _ _).1 hrun
  obtain ⟨hproper, hcheck⟩ := of_decide_eq_true hcheck
  have hunaided : (e₀.performAll untilCancelled).Unaided :=
    (Unaided.build (eq_ok_of_toOption he₀) rfl (by decide)).performAll hproper
  generalize e₀.performAll untilCancelled = e at hcheck hunaided
  obtain ⟨hactive, hlinked, hrunning, hcancelled, hindex, hone, htwo⟩ := hcheck
  have hhalts := hunaided.commitsNothing.tick 0 hrunning hcancelled
  exact ⟨e, hunaided, hactive, hlinked, hhalts, hone, htwo,
    (congrArg Cursor.index hhalts.resumes.2).trans hindex⟩

end Engine

end Playhead
