import Playhead.Proofs.Motion.Step
import Playhead.Proofs.Services.Tick

/-!
What the retained snapshots record: a game over the services there are, at a command of a script
that was held.
-/

namespace Playhead

/-- A snapshot of services of a shape, captured at a command of one of some scripts. -/
structure Snapshot.Recorded (σ : ServiceSet) (D : Document → Prop) (x : Snapshot) : Prop where
  collected : ∃ s : ServiceSet, s.shape = σ ∧ StateMap.collect s .game = .ok x.records
  taken : ∃ d, D d ∧ x.spot.script = d.name ∧ x.revision = d.revision ∧ x.spot.index < d.size

variable {σ : ServiceSet} {D : Document → Prop}

theorem Snapshot.Recorded.alike {x y : Snapshot} (h : x.Recorded σ D) (hxy : x.Alike y) :
    y.Recorded σ D := by
  unfold Alike at hxy
  rw [hxy]
  exact ⟨h.collected, h.taken⟩

namespace Playback

/-- Playback of one of some scripts over services of a shape, with snapshots that were recorded
so. -/
structure Records (σ : ServiceSet) (D : Document → Prop) (p : Playback) : Prop where
  tame : p.Tame σ
  document : ∀ d, p.player.document = some d → D d
  snapshots : ∀ x ∈ p.manager.stack.snapshots, x.Recorded σ D

variable {env : Env} {p q : Playback} {l : List Playback}

/-- Whether all scripts that are held are among some. -/
def HoldsOnly (D : Document → Prop) (p : Playback) : Prop :=
  ∀ d, p.library.get? d.name = some d → D d

theorem Tame.step (hr : env.source.registry.Starts Task.Tame) (hp : p.Tame σ)
    (h : Step env p q) : q.Tame σ := by
  cases h with
  | interrupt hc => exact hp.cancelActive.congr rfl rfl
  | leave delta =>
    exact hp.congr (p.services_leaveWait env delta)
      (congrArg Bearings.active (p.bearings_leaveWait env delta))
  | goOn =>
    exact hp.congr p.services_continueInput (congrArg Bearings.active p.bearings_continueInput)
  | reach hb ha =>
    unfold Playback.reach
    split
    · exact hp.congr (p.services_checkForward _ _)
        (congrArg Bearings.active (p.bearings_checkForward _ _))
    · exact hp
  | arrive hrun ha hreach =>
    unfold Playback.arrive
    split
    · split
      · unfold Playback.passTo
        dsimp only
        split <;> exact hp.congr rfl rfl
      · split
        · rename_i c h hc
          obtain ⟨c', -, hmap⟩ := Option.bind_eq_some_iff.1 hc
          obtain ⟨h', hh, heq⟩ := Option.map_eq_some_iff.1 hmap
          cases heq
          exact Tame.begin (p := p.entering) hr (hp.congr rfl rfl) hh
        · exact hp
    · exact hp
  | work hrun ha delta => exact hp.stepActive env ha delta

/-- Whether all snapshots were recorded so, if no other scripts are held. -/
def KeepsRecords (σ : ServiceSet) (D : Document → Prop) (p : Playback) : Prop :=
  p.HoldsOnly D → ∀ x ∈ p.manager.stack.snapshots, x.Recorded σ D

theorem Records.of_stack (hp : p.Records σ D) (hs : q.manager.stack = p.manager.stack) :
    ∀ x ∈ q.manager.stack.snapshots, x.Recorded σ D :=
  hs ▸ hp.snapshots

theorem Records.keeps (hp : p.Records σ D) (hs : q.manager.stack = p.manager.stack) :
    q.KeepsRecords σ D := fun _ =>
  hp.of_stack hs

/-- What is captured after a command is recorded where playback goes on. -/
theorem Records.complete (hp : p.Records σ D) (hr : env.source.registry.Sound)
    (hread : p.bearings.Read env.source.registry) (ha : p.player.active = none) (index : Nat)
    (c : Completion) (eligible : Bool) :
    (p.complete env index c eligible).1.KeepsRecords σ D := by
  unfold Playback.complete
  cases hd : p.player.document with
  | none => exact hp.keeps rfl
  | some d =>
    have hlooks := follow_looks hr hread hd index c.flow
    have hservices := (p.follow_frame env d index c.flow).1
    dsimp only
    generalize p.follow env d index c.flow = r at hlooks hservices ⊢
    obtain ⟨q, e | ⟨next, i⟩⟩ := r
    · refine hp.keeps ?_
      have hstop : (q.stop (.fault e.message)).manager.stack = q.manager.stack :=
        congrArg Bearings.stack (q.bearings_stop _)
      exact hstop.trans (congrArg StateManager.stack hlooks.manager)
    · have hmanager : q.manager = p.manager := hlooks.manager
      have hidle : q.player.active = none := by
        obtain ⟨arrived, hplayer⟩ := hlooks.player
        exact (congrArg Player.active hplayer).trans ha
      obtain ⟨r, m, hr', he, hnew⟩ := capture_captured next i c eligible hidle
      dsimp only
      rw [he]
      obtain ⟨u, hu⟩ : ∃ u, u = ((({ r with manager := m } : Playback).moveTo next i
        (if c.flow = .stop then .command else .endOfScript)).settle c
          (addsChoice env.source.registry next i)) := ⟨_, rfl⟩
      have hub : u.bearings = ({ r with manager := m } : Playback).bearings.moveTo next i := by
        rw [hu]
        exact (bearings_settle _ _ _).trans (bearings_moveTo _ _ _ _)
      rw [← hu]
      have hstack : u.manager.stack = m.stack := congrArg Bearings.stack hub
      have hlibrary : u.library = q.library :=
        (congrArg Bearings.library hub).trans (congrArg Backdrop.library hr'.backdrop)
      intro hD x hx
      rw [hstack] at hx
      rcases hnew x hx with ⟨y, hy, hyx⟩ | ⟨-, hcaptured⟩
      · exact (hp.snapshots y (hmanager ▸ hy)).alike hyx
      · obtain ⟨d', i', records, hd', hi', hrecords, hx⟩ := hcaptured.taken
        cases hd'
        have hsize : i < next.size ∧ i = i' := by
          have hi' : (if i < next.size then some i else none) = some i' := hi'
          split at hi'
          · exact ⟨‹_›, Option.some.inj hi'⟩
          · cases hi'
        obtain ⟨hsize, rfl⟩ := hsize
        have hnext : D next := by
          rcases hlooks.held next i rfl with rfl | hget
          · exact hp.document next hd
          · exact hD next (hlibrary ▸ hget)
        rw [hx]
        refine ⟨⟨q.services, ?_, (StateMap.collect_story q.services).symm.trans hrecords⟩,
          next, hnext, rfl, rfl, hsize⟩
        rw [show q.services = p.services from hservices]
        exact hp.tame.shape

theorem Records.begin (hp : p.Records σ D) (hr : env.source.registry.Sound)
    (hread : p.bearings.Read env.source.registry) (ha : p.player.active = none) (d : Document)
    (i : Nat) (c : Command) (h : Handler) : (p.begin env d i c h).1.KeepsRecords σ D := by
  obtain ⟨u, hu⟩ : ∃ u, u = p.reported env ⟨d.name, i⟩ c.name := ⟨_, rfl⟩
  have hub : u.bearings = { p.bearings with played := p.bearings.played + 1 } := by
    rw [hu, reported, bearings_emit, bearings_trackRead]
    rfl
  have hstack : u.manager.stack = p.manager.stack := congrArg Bearings.stack hub
  rw [begin_eq, ← hu]
  cases hb : h.begin c with
  | ok task => exact hp.keeps hstack
  | error f =>
    have htame : u.Tame σ := by
      have hcounted : (p.withCursor { p.cursor with played := p.cursor.played + 1 }).Tame σ :=
        hp.tame.congr rfl rfl
      rw [hu]
      exact (hcounted.trackRead env ⟨d.name, i⟩).congr rfl rfl
    have hfault : (u.reportFault ⟨d.name, i⟩ f.message).Records σ D :=
      ⟨htame.congr rfl rfl,
        fun d' hd' => hp.document d' ((congrArg Bearings.document hub).symm.trans hd'),
        hp.of_stack hstack⟩
    dsimp only
    rw [fst_passed]
    refine hfault.complete hr ?_ ?_ i (.ofFault c.role) h.eligible
    · have hread' : u.bearings.Read env.source.registry := hub ▸ ⟨hread.library, hread.document⟩
      exact hread'
    · exact (congrArg Bearings.active hub).trans ha

theorem Records.stepActive (hp : p.Records σ D) (hr : env.source.registry.Sound)
    (hread : p.bearings.Read env.source.registry) {a : ActiveCommand}
    (ha : p.player.active = some a) (delta : Nanoseconds) :
    (p.stepActive env a delta).1.KeepsRecords σ D := by
  have hfinish : ∀ (q : Playback) (c : Completion), q.services.shape = σ →
      q.bearings = { p.bearings with active := none } →
      (finished (q.complete env a.index c a.eligible)).1.KeepsRecords σ D := by
    intro q c hs hb
    rw [fst_finished]
    have hidle : q.player.active = none := congrArg Bearings.active hb
    have hq : q.Records σ D := ⟨⟨hs, fun a' ha' => by cases hidle.symm.trans ha'⟩,
      fun d hd => hp.document d ((congrArg Bearings.document hb).symm.trans hd),
      hp.of_stack (congrArg Bearings.stack hb)⟩
    refine hq.complete hr ?_ hidle a.index c a.eligible
    rw [hb]
    exact ⟨hread.library, hread.document⟩
  have htask := hp.tame.active a ha
  cases hd : p.player.document with
  | none =>
    rw [stepActive_of_no_document hd]
    exact hp.keeps rfl
  | some d =>
    cases hc : d.command? a.index with
    | none =>
      rw [stepActive_of_no_command hd hc]
      exact hp.keeps rfl
    | some c =>
      rw [stepActive_eq hd hc]
      have hshape := fun ctx => (htask _ .refl p.services).2 ctx
      generalize hstep : a.task.step _ p.services = r
      have hs : r.2.shape = σ := by
        rw [← hstep]
        exact (hshape _).trans hp.tame.shape
      obtain ⟨⟨task, why⟩ | ⟨done⟩ | ⟨f⟩, s⟩ := r
      · exact hp.keeps rfl
      · exact hfinish _ _ hs rfl
      · exact hfinish _ _ hs rfl

theorem Records.arrive (hp : p.Records σ D) (hr : env.source.registry.Sound)
    (hread : p.bearings.Read env.source.registry) (ha : p.player.active = none) :
    (p.arrive env).KeepsRecords σ D := by
  unfold Playback.arrive
  split
  · rename_i d hi hd
    split
    · rename_i next he
      have hstack : (p.passTo d next).manager.stack = p.manager.stack := by
        unfold passTo
        dsimp only
        split <;> rfl
      exact hp.keeps hstack
    · split
      · have hentering : p.entering.Records σ D :=
          ⟨hp.tame.congr rfl rfl, hp.document, hp.snapshots⟩
        exact hentering.begin hr hread ha d _ _ _
      · exact hp.keeps rfl
  · exact hp.keeps rfl

/-- Whatever a step captures is recorded where it comes to. -/
theorem Records.step (hp : p.Records σ D) (hs : Steps env p)
    (hstarts : env.source.registry.Starts Task.Tame) (h : Step env p q) (hD : q.HoldsOnly D) :
    q.Records σ D := by
  have hturns : Turns env .none p q := h.turns hs.registry hs.read
  have hkeeps : q.KeepsRecords σ D := by
    cases h with
    | interrupt hc => exact hp.keeps (congrArg Bearings.stack p.interrupt_bearings)
    | leave delta => exact hp.keeps (congrArg Bearings.stack (p.bearings_leaveWait env delta))
    | goOn => exact hp.keeps (congrArg Bearings.stack p.bearings_continueInput)
    | reach hb ha => exact hp.keeps (congrArg Bearings.stack p.bearings_reach)
    | arrive hrun ha hreach => exact hp.arrive hs.registry hs.read ha
    | work hrun ha delta => exact hp.stepActive hs.registry hs.read ha delta
  exact ⟨hp.tame.step hstarts h,
    fun d hd => (hturns.document id d hd).elim (hp.document d) (hD d), hkeeps hD⟩

/-- Steps forget no script. -/
theorem Step.holdsOnly (hs : Steps env p) (h : Step env p q) (hD : q.HoldsOnly D) :
    p.HoldsOnly D := by
  have hturns : Turns env .none p q := h.turns hs.registry hs.read
  exact fun d hd => hD d (hturns.held id hd)

theorem Path.holdsOnly (h : Path env p l q) (hs : Steps env p) (hD : q.HoldsOnly D) :
    p.HoldsOnly D := by
  induction h with
  | nil => exact hD
  | cons h tail ih => exact h.holdsOnly hs (ih ((Path.one h).steps hs) hD)

theorem Records.path (hp : p.Records σ D) (hs : Steps env p)
    (hstarts : env.source.registry.Starts Task.Tame) (h : Path env p l q) (hD : q.HoldsOnly D) :
    q.Records σ D := by
  induction h with
  | nil => exact hp
  | cons h tail ih =>
    have hnext := (Path.one h).steps hs
    exact ih (hp.step hs hstarts h (tail.holdsOnly hnext hD)) hnext hD

theorem Records.tick (hp : p.Records σ D) (hs : Steps env p)
    (hstarts : env.source.registry.Starts Task.Tame) (delta : Nanoseconds)
    (hD : (p.tick env delta).1.HoldsOnly D) : (p.tick env delta).1.Records σ D :=
  hp.path hs hstarts (tick_path delta hs) hD

theorem Records.fastForward (hp : p.Records σ D) (hs : Steps env p)
    (hstarts : env.source.registry.Starts Task.Tame) (target : Nat) :
    (p.fastForward env target).1.KeepsRecords σ D := by
  unfold Playback.fastForward
  split
  · rename_i d start hd hi
    split
    · exact hp.keeps rfl
    · split
      · exact hp.keeps rfl
      · obtain ⟨begun, hbegun⟩ : ∃ begun, begun = ({ p with player := { p.player with
            cursor := { p.cursor with skipping := true }
            fastForward := some ⟨d.name, target, false, false⟩ } } : Playback) := ⟨_, rfl⟩
        dsimp only
        rw [← hbegun]
        have hrecords : begun.Records σ D := by
          rw [hbegun]
          exact ⟨hp.tame.congr rfl rfl, hp.document, hp.snapshots⟩
        have hsteps : Steps env begun := by
          rw [hbegun]
          exact ⟨hs.registry, hs.read, hs.placed⟩
        obtain ⟨l, hpath⟩ := forward_path p.cursor.played
          (env.config.fastForwardLimit + 1) hsteps
        intro hD
        exact (hrecords.path hsteps hstarts hpath hD).snapshots
  · exact hp.keeps rfl

end Playback

end Playhead
