import Playhead.Engine.Rollback
import Playhead.Proofs.Engine.Sound
import Playhead.Proofs.Standing.Steady

/-!
Rolling back to a snapshot puts playback where the snapshot was taken.
-/

namespace Playhead

theorem Snapshot.verify_make (x : Snapshot) {spot : Spot} {revision : UInt64} {played : Nat}
    {records : StateMap}
    (hx : x = { make spot revision played records with
      waiting := x.waiting, allowed := x.allowed }) : x.verify = .ok () := by
  rw [hx]
  simp [verify, make]

namespace Playback

/-- A new scope in place of one that is cancelled. -/
def Backdrop.renew (b : Backdrop) : Backdrop :=
  { b with
    scopes := ⟨b.scopes.next + 1, b.scope.id :: b.scopes.cancelled⟩
    scope := ⟨b.scopes.next, []⟩ }

variable {env : Env} {p : Playback}

/-- Waiting again at a restored position presents the options that were pending there. -/
theorem settleWaiting_eq (p : Playback) (waiting : Bool) :
    let q := p.settleWaiting waiting
    q.standing = p.standing ∧
      q.plot = p.plot ++
        (if p.choicesPending then [.choicePresented p.services.pendingChoices] else []) ∧
      q.backdrop = p.backdrop ∧ q.player.active = p.player.active ∧
      (q.player.halted = true → p.player.halted = true) := by
  unfold settleWaiting
  dsimp only
  split
  · obtain ⟨q, hq, he⟩ := presentChoices_stays p
    rw [he]
    refine ⟨hq.standing, ?_, hq.backdrop, hq.active, hq.halted⟩
    rw [plot_emit, hq.plot]
    rfl
  · rw [List.append_nil]
    split
    · have hq := Stays.enterWait p
      exact ⟨hq.standing, hq.plot, hq.backdrop, hq.active, hq.halted⟩
    · exact ⟨rfl, rfl, rfl, rfl, id⟩

/-- Where a position is restored, with the options that are presented again. -/
theorem restorePosition_eq (ha : p.player.active = none) {d : Document} {index : Nat}
    (hi : index < d.size) (played : Nat) (waiting : Bool) :
    let q := p.restorePosition d index played waiting
    q.standing = ⟨some d, some index, false, false, played, p.services.story⟩ ∧
      q.plot = p.plot ++
        (if p.choicesPending then [.choicePresented p.services.pendingChoices] else []) ∧
      q.backdrop = { p.backdrop with fastForward := none } ∧ q.player.active = none ∧
      q.player.halted = false := by
  intro q
  have hcancel := cancelActive_of_idle ha
  have hstays := (Stays.setSkip p false).trans (Stays.enterScript _ d)
  obtain ⟨r, hr⟩ : ∃ r : Playback, r = (p.setSkip false).enterScript d := ⟨_, rfl⟩
  obtain ⟨u, hu⟩ : ∃ u : Playback, u = { r with player := { r.player with
      cursor := { r.cursor with
        script := d.name
        revision := d.revision
        index := some index
        played := played
        waiting := false }
      document := some d
      halted := false
      arrivedByBranch := false
      waitElapsed := 0
      fastForward := none } } := ⟨_, rfl⟩
  have hq : q = u.settleWaiting waiting := by
    show p.restorePosition d index played waiting = _
    unfold restorePosition
    rw [hcancel, if_pos hi, hu, hr]
  rw [← hr] at hstays
  have hactive : r.player.active = none := hstays.active.trans ha
  have hservices : u.services.story = p.services.story := by
    rw [hu]
    exact congrArg Standing.services hstays.standing
  have hstanding : u.standing = ⟨some d, some index, false, false, played, p.services.story⟩ := by
    rw [← hservices, hu]
    unfold standing
    rw [hactive]
    rfl
  have hplot : u.plot = p.plot := by
    rw [← hstays.plot, hu]
    rfl
  have hbackdrop : u.backdrop = { p.backdrop with fastForward := none } := by
    rw [← hstays.backdrop, hu]
    rfl
  have huactive : u.player.active = none := by rw [hu]; exact hactive
  have hhalted : u.player.halted = false := by rw [hu]
  have hpending : u.choicesPending = p.choicesPending := by
    show u.services.story.choicesPending = p.services.story.choicesPending
    rw [hservices]
  have hoptions : u.services.pendingChoices = p.services.pendingChoices := by
    show u.services.story.pendingChoices = p.services.story.pendingChoices
    rw [hservices]
  obtain ⟨hs, hp, hb, ha, hh⟩ := settleWaiting_eq u waiting
  rw [hq]
  refine ⟨hs.trans hstanding, ?_, hb.trans hbackdrop, ha.trans huactive, ?_⟩
  · rw [hp, hplot, hpending, hoptions]
  · rw [Bool.eq_false_iff]
    exact fun h => absurd (hhalted.symm.trans (hh h)) Bool.false_ne_true

end Playback

namespace Engine

variable {e : Engine}

/-- Where a rollback has put playback: at a standing, with the options that were pending there
presented again. -/
structure Restored (e : Engine) (t : Standing) (e' : Engine) : Prop where
  sound : e'.Sound
  env : e'.env = e.env
  shelf : e'.playback.shelf e'.env = e.playback.shelf e.env
  standing : e'.playback.standing = t
  plot : e'.playback.plot = e.playback.plot ++
    if t.services.choicesPending then [.choicePresented t.services.pendingChoices] else []
  going : e'.player.halted = false

theorem Restored.stays {t : Standing} {e' : Engine} {p : Playback} (h : Restored e t e')
    (hp : Playback.Stays e'.playback p) : Restored e t { e' with playback := p } where
  sound := h.sound.stays hp
  env := h.env
  shelf := (Playback.shelf_of_backdrop e'.env hp.backdrop).trans h.shelf
  standing := hp.standing.trans h.standing
  plot := hp.plot.trans h.plot
  going := Bool.eq_false_iff.2 fun hh =>
    absurd (h.going.symm.trans (hp.halted hh)) Bool.false_ne_true

/-- Putting back a snapshot whose records the services take in. -/
theorem restoreSnapshot_eq (he : e.Sound) {x : Snapshot} {u : ServiceSet}
    (hu : StateManager.restore e.services x = (u, .ok ())) (d : Document) (position : Nat) :
    ∃ p : Playback, e.restoreSnapshot position x d =
        ({ e with playback :=
          (p.restorePosition d x.spot.index x.played x.waiting).setSynchronizing false },
          .ok (.completed x.spot)) ∧
      p.services = u ∧ p.plot = e.playback.plot ∧ p.player.active = none ∧
      p.backdrop = e.playback.backdrop.renew := by
  have hemit := Playback.Stays.emit e.playback (e := .rollbackStarted e.cursor.spot? x.spot) rfl
  obtain ⟨r, hr⟩ : ∃ r : Engine,
      r = (e.emit (.rollbackStarted e.cursor.spot? x.spot)).cancelPlaybackScope := ⟨_, rfl⟩
  have hr' := hr.trans (cancelPlaybackScope_eq (he.stays hemit))
  have hservices : (r.onPlayback (·.setSynchronizing true)).services = e.services := by
    rw [hr']
    rfl
  refine ⟨(((r.onPlayback (·.setSynchronizing true)).withServices u).withStack
    (r.stack.truncateAfter position)).playback, ?_, rfl, ?_, ?_, ?_⟩
  · unfold restoreSnapshot
    rw [← hr]
    dsimp only
    rw [hservices, hu]
    dsimp only
    rw [hr']
    rfl
  · rw [← hemit.plot, hr']
    rfl
  · rw [hr']
    rfl
  · rw [hr']
    rfl

/-- Putting playback at a standing that no branch was left for. -/
theorem restorePosition_restores (he : e.Sound) {t : Standing} {d : Document} {index : Nat}
    (hd : t.document = some d) (hi : t.index = some index) (hidle : t.busy = false)
    (hfresh : t.arrived = false) (hplaced : t.Placed (e.playback.shelf e.env)) {p : Playback}
    (hservices : p.services.story = t.services) (hplot : p.plot = e.playback.plot)
    (hactive : p.player.active = none) (hbackdrop : p.backdrop = e.playback.backdrop.renew)
    (waiting : Bool) :
    Restored e t { e with playback := p.restorePosition d index t.played waiting } := by
  obtain ⟨hstanding, hplot', hbackdrop', hactive', hhalted⟩ := Playback.restorePosition_eq hactive
    (hplaced d index hd hi).2 t.played waiting
  rw [hbackdrop] at hbackdrop'
  have hsame : (p.restorePosition d index t.played waiting).standing = t := by
    rw [hstanding, hservices, ← hd, ← hi]
    cases t
    cases hidle
    cases hfresh
    rfl
  have hshelf : (p.restorePosition d index t.played waiting).shelf e.env =
      e.playback.shelf e.env := by
    have hlibrary : (p.restorePosition d index t.played waiting).library = e.library :=
      congrArg Playback.Backdrop.library hbackdrop'
    unfold Playback.shelf
    rw [hlibrary]
    rfl
  have hsound : Sound { e with playback := p.restorePosition d index t.played waiting } := by
    refine he.reopened hshelf ?_ ?_ ?_ ?_ hactive'
    · exact congrArg Playback.Backdrop.scopes hbackdrop'
    · exact congrArg Playback.Backdrop.scope hbackdrop'
    · exact congrArg Playback.Backdrop.fastForward hbackdrop'
    · exact (congrArg (Standing.Placed (e.playback.shelf e.env)) hsame).mpr hplaced
  refine ⟨hsound, rfl, hshelf, hsame, ?_, hhalted⟩
  show (p.restorePosition d index t.played waiting).plot = _
  have hpending : p.choicesPending = t.services.choicesPending := by rw [← hservices]; rfl
  have hoptions : p.services.pendingChoices = t.services.pendingChoices := by
    rw [← hservices]
    rfl
  rw [hplot', hplot, hpending, hoptions]

/-- Putting back a snapshot in whose script it was taken. -/
theorem restoreSnapshot_restores (he : e.Sound) {t : Standing} {x : Snapshot}
    (hx : t.Captured x) (hfresh : t.arrived = false) {d : Document} (hd : t.document = some d)
    (hplaced : t.Placed (e.playback.shelf e.env)) (hstory : t.services.story = t.services)
    (hp : t.services.Peers e.services) (hg : t.services.globals = e.services.globals)
    (ht : t.services.Storable) (hf : e.services.Faithful) (position : Nat) :
    ∃ e', e.restoreSnapshot position x d = (e', .ok (.completed x.spot)) ∧ Restored e t e' := by
  obtain ⟨d', index, records, hd', hi, hr, hx'⟩ := hx.taken
  cases hd.symm.trans hd'
  have hspot : x.spot = ⟨d.name, index⟩ := by rw [hx']; rfl
  have hplayed : x.played = t.played := by rw [hx']; rfl
  have hrecords : x.records = records := by rw [hx']; rfl
  obtain ⟨u, happly, hu⟩ := StateMap.apply_collect hp hg ht hf hr
  have hrestore : StateManager.restore e.services x = (u, .ok ()) := by
    unfold StateManager.restore
    rw [x.verify_make hx', hrecords]
    simp only [happly]
  obtain ⟨p, hresult, hservices, hplot, hactive, hbackdrop⟩ :=
    restoreSnapshot_eq he hrestore d position
  rw [hspot, hplayed] at hresult
  have hrestored := restorePosition_restores he hd hi hx.idle hfresh hplaced
    (by rw [hservices, hu, hstory]) hplot hactive hbackdrop x.waiting
  have hstays : Playback.Stays (p.restorePosition d index t.played x.waiting)
      ((p.restorePosition d index t.played x.waiting).setSynchronizing false) :=
    ⟨⟨rfl, rfl, rfl⟩, rfl, rfl, id⟩
  exact ⟨_, hspot ▸ hresult, hrestored.stays hstays⟩

theorem Restored.of_library {k : ScriptLibrary} {t : Standing} {e' : Engine}
    (hk : ({ e.playback with library := k } : Playback).shelf e.env = e.playback.shelf e.env)
    (h : Restored { e with playback := { e.playback with library := k } } t e') :
    Restored e t e' :=
  ⟨h.sound, h.env, h.shelf.trans hk, h.standing, h.plot, h.going⟩

/-- Rolling back to a retained snapshot that was taken on the shelf. -/
theorem rollback_restores (he : e.Sound) (hplays : e.player.document ≠ none) {position : Nat}
    {x : Snapshot} (hget : e.stack.get? position = some x) {t : Standing} (hx : t.Captured x)
    (hfresh : t.arrived = false) (ht : t.Domestic (e.playback.shelf e.env))
    (hp : t.services.Peers e.services) (hg : t.services.globals = e.services.globals)
    (hs : t.services.Storable) (hf : e.services.Faithful) :
    ∃ e', e.rollback (.position position) = (e', .ok (.completed x.spot)) ∧ Restored e t e' := by
  obtain ⟨d, index, records, hd, hi, hr, hx'⟩ := hx.taken
  obtain ⟨hscript, hlt⟩ := ht.placed d index hd hi
  have hspot : x.spot = ⟨d.name, index⟩ := by rw [hx']; rfl
  have hrevision : x.revision = d.revision := by rw [hx']; rfl
  obtain ⟨k, hload, hk, hsk⟩ := loadDocument_eq he hscript
  obtain ⟨e', hrestore, hrestored⟩ := restoreSnapshot_restores hsk hx hfresh hd
    (hk ▸ ht.placed) ht.story hp hg hs hf position
  refine ⟨e', ?_, hrestored.of_library hk⟩
  have hlt' : position < e.stack.snapshots.length := (List.getElem?_eq_some_iff.1 hget).1
  have hfind : e.playback.manager.findTarget (.position position) e.cursor.played =
      .ok position := by
    unfold StateManager.findTarget
    have hsize : position < e.playback.manager.stack.size := hlt'
    have hsome : e.playback.manager.stack.snapshots.isEmpty = false := by
      rw [List.isEmpty_eq_false_iff]
      exact List.ne_nil_of_length_pos (Nat.lt_of_le_of_lt (Nat.zero_le _) hlt')
    simp only [hsome, Bool.false_eq_true, if_false, if_pos hsize]
  have hsome : e.player.document.isNone = false := by
    cases hdoc : e.player.document with
    | none => exact absurd hdoc hplays
    | some d => rfl
  have hchecks : (decide (d.revision ≠ x.revision) || decide (d.size < x.spot.index)) = false := by
    rw [hrevision, hspot]
    simp [Nat.le_of_lt hlt]
  rw [← show x.spot.script = d.name by rw [hspot]] at hload
  unfold rollback rollbackTo
  rw [hsome, hfind]
  unfold rollbackToPosition
  simp only [Bool.false_eq_true, if_false, hget, hload, hchecks]
  exact hrestore

end Engine

end Playhead
