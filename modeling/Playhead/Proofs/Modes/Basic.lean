import Playhead.Proofs.Motion.Moves
import Playhead.Proofs.Motion.Pace

/-!
The modes of playback, skipping and auto-play, as a host sees them that goes by the events alone.

All that playback does tells each change of a mode, except that a run forward skips without telling
it. While a run forward is under way no change of a mode is told at all.
-/

namespace Playhead

/-- Whether playback skips and plays on by itself. -/
structure Modes where
  skipping : Bool
  autoPlaying : Bool
deriving DecidableEq, Repr

/-- The modes after an event. -/
def Modes.hear (m : Modes) : Event → Modes
  | .skipChanged on => { m with skipping := on }
  | .autoPlayChanged on => { m with autoPlaying := on }
  | _ => m

/-- Whether an event leaves the modes as they are. -/
def Event.Silent (e : Event) : Prop :=
  ∀ m : Modes, m.hear e = m

namespace Modes

def off : Modes := ⟨false, false⟩

def hearAll (m : Modes) (l : List Event) : Modes :=
  l.foldl hear m

theorem hearAll_append (m : Modes) (l k : List Event) :
    m.hearAll (l ++ k) = (m.hearAll l).hearAll k :=
  List.foldl_append

theorem hearAll_of_silent {l : List Event} (h : ∀ e ∈ l, e.Silent) (m : Modes) :
    m.hearAll l = m := by
  induction l with
  | nil => rfl
  | cons e l ih =>
    show (m.hear e).hearAll l = m
    rw [h e List.mem_cons_self]
    exact ih fun e' he' => h e' (List.mem_cons_of_mem e he')

end Modes

namespace Playback

def modes (p : Playback) : Modes :=
  ⟨p.cursor.skipping, p.cursor.autoPlaying⟩

/-- What was told since leads from the modes of before to those of now; auto-play stays. -/
structure Tells (p q : Playback) : Prop where
  told : ∃ l, q.scene.events = p.scene.events ++ l ∧ p.modes.hearAll l = q.modes
  auto : q.cursor.autoPlaying = p.cursor.autoPlaying

/-- The modes stay, and no change of them is told. -/
structure Mute (p q : Playback) : Prop where
  told : ∃ l, q.scene.events = p.scene.events ++ l ∧ ∀ m : Modes, m.hearAll l = m
  modes : q.modes = p.modes

/-- A mute move that leaves a run forward as it is. -/
structure Hushes (p q : Playback) : Prop extends Mute p q where
  forward : q.player.fastForward = p.player.fastForward

/-- Changes of the modes are told; in a run forward there are none. -/
structure Sounds (p q : Playback) : Prop where
  tells : Tells p q
  mute : p.player.fastForward ≠ none → Mute p q

variable {env : Env} {p q r : Playback} {d : Document} {a : ActiveCommand}

namespace Tells

theorem of_frame (hs : q.scene.newest = p.scene.newest) (hm : q.modes = p.modes) : Tells p q := by
  refine ⟨⟨[], ?_, hm.symm⟩, congrArg Modes.autoPlaying hm⟩
  unfold Scene.events
  rw [hs, List.append_nil]

theorem refl (p : Playback) : Tells p p :=
  .of_frame rfl rfl

theorem trans (h : Tells p q) (h' : Tells q r) : Tells p r := by
  obtain ⟨l, hq, hl⟩ := h.told
  obtain ⟨k, hr, hk⟩ := h'.told
  refine ⟨⟨l ++ k, ?_, ?_⟩, h'.auto.trans h.auto⟩
  · rw [hr, hq, List.append_assoc]
  · rw [Modes.hearAll_append, hl, hk]

theorem setSkip (p : Playback) (on : Bool) : Tells p (p.setSkip on) := by
  unfold Playback.setSkip
  split
  · exact .refl p
  · exact ⟨⟨[.skipChanged on], Scene.events_emit _ _, rfl⟩, rfl⟩

end Tells

namespace Mute

theorem trans (h : Mute p q) (h' : Mute q r) : Mute p r := by
  obtain ⟨l, hq, hl⟩ := h.told
  obtain ⟨k, hr, hk⟩ := h'.told
  refine ⟨⟨l ++ k, ?_, fun m => ?_⟩, h'.modes.trans h.modes⟩
  · rw [hr, hq, List.append_assoc]
  · rw [Modes.hearAll_append, hl, hk]

theorem of_frame (hs : q.scene.newest = p.scene.newest) (hm : q.modes = p.modes) : Mute p q := by
  refine ⟨⟨[], ?_, fun _ => rfl⟩, hm⟩
  unfold Scene.events
  rw [hs, List.append_nil]

theorem refl (p : Playback) : Mute p p :=
  .of_frame rfl rfl

theorem emit (p : Playback) {e : Event} (he : e.Silent) : Mute p (p.emit e) :=
  ⟨⟨[e], p.scene.events_emit e, he⟩, rfl⟩

theorem tells (h : Mute p q) : Tells p q := by
  obtain ⟨l, hq, hl⟩ := h.told
  exact ⟨⟨l, hq, (hl p.modes).trans h.modes.symm⟩, congrArg Modes.autoPlaying h.modes⟩

theorem sounds (h : Mute p q) : Sounds p q :=
  ⟨h.tells, fun _ => h⟩

end Mute

namespace Hushes

theorem of_frame (hs : q.scene.newest = p.scene.newest) (hm : q.modes = p.modes)
    (hf : q.player.fastForward = p.player.fastForward) : Hushes p q :=
  ⟨.of_frame hs hm, hf⟩

theorem refl (p : Playback) : Hushes p p :=
  .of_frame rfl rfl rfl

theorem trans (h : Hushes p q) (h' : Hushes q r) : Hushes p r :=
  ⟨h.toMute.trans h'.toMute, h'.forward.trans h.forward⟩

theorem emit (p : Playback) {e : Event} (he : e.Silent) : Hushes p (p.emit e) :=
  ⟨.emit p he, rfl⟩

theorem cancelActive (p : Playback) : Hushes p p.cancelActive := by
  unfold Playback.cancelActive
  split
  · exact .refl p
  · exact .of_frame rfl rfl rfl

theorem interrupt (p : Playback) : Hushes p p.interrupt := by
  have hcancel := Hushes.cancelActive p
  unfold Playback.interrupt
  generalize p.cancelActive = u at hcancel ⊢
  exact hcancel.trans (Hushes.trans (q := { u.renewScope with player := { u.renewScope.player with
    halted := true } }) (.of_frame rfl rfl rfl) (.emit _ fun _ => rfl))

theorem endOfScript (p : Playback) (reason : StopReason) : Hushes p (p.endOfScript reason) :=
  Hushes.trans (q := p.withCursor { p.cursor with index := none, waiting := false })
    (.of_frame rfl rfl rfl) (.emit _ fun _ => rfl)

theorem enterWait (p : Playback) : Hushes p p.enterWait :=
  Hushes.trans (q := { p with player := { p.player with
    cursor := { p.cursor with waiting := true }, waitElapsed := 0 } })
    (.of_frame rfl rfl rfl) (.emit _ fun _ => rfl)

theorem continueInput (p : Playback) : Hushes p p.continueInput := by
  unfold Playback.continueInput
  split
  · exact .refl p
  · exact .of_frame rfl rfl rfl

theorem enterScript (p : Playback) (d : Document) : Hushes p (p.enterScript d) := by
  unfold Playback.enterScript
  split
  · exact .refl p
  · exact .emit p fun _ => rfl

theorem moveTo (p : Playback) (d : Document) (i : Nat) (atEnd : StopReason) :
    Hushes p (p.moveTo d i atEnd) := by
  have henter := Hushes.enterScript p d
  unfold Playback.moveTo
  generalize p.enterScript d = u at henter ⊢
  obtain ⟨v, hv⟩ : ∃ v : Playback, v = { u with player := { u.player with
      cursor := { u.cursor with script := d.name, revision := d.revision, waiting := false }
      document := some d } } := ⟨_, rfl⟩
  have hmoved : Hushes p v := henter.trans (hv ▸ .of_frame rfl rfl rfl)
  dsimp only
  rw [← hv]
  split
  · exact hmoved.trans (.endOfScript v atEnd)
  · exact hmoved.trans (.of_frame rfl rfl rfl)

theorem lockNewest (p : Playback) (allow : Bool) : Hushes p (p.lockNewest allow) := by
  unfold Playback.lockNewest
  split
  · exact .refl p
  · exact .of_frame rfl rfl rfl

theorem capture (p : Playback) (d : Document) (next : Nat) (c : Completion) :
    Hushes p (p.capture d next c) := by
  unfold Playback.capture StateManager.capture
  cases StateMap.collect p.services .game with
  | error e => exact .refl p
  | ok records =>
    dsimp only
    generalize p.manager.stack.push _ = pushed
    obtain ⟨stack, evicted⟩ := pushed
    have hpush : Hushes p { p with manager := { p.manager with stack := stack } } :=
      .of_frame rfl rfl rfl
    cases evicted with
    | none => exact hpush
    | some x => exact hpush.trans (.emit _ fun _ => rfl)

theorem follow (env : Env) (hd : p.player.document = some d) (index : Nat) (flow : Flow) :
    Hushes p (p.follow env d index flow).1 := by
  obtain ⟨k, hk, -⟩ := follow_eq env hd index flow
  rw [hk]
  exact .of_frame rfl rfl rfl

theorem reportFault (p : Playback) (spot : Spot) (message : String) :
    Hushes p (p.reportFault spot message) :=
  .emit p fun _ => rfl

theorem passTo (p : Playback) (d : Document) (next : Nat) : Hushes p (p.passTo d next) := by
  obtain ⟨q, hq⟩ : ∃ q, q = p.entering.withCursor { p.cursor with index := some next } := ⟨_, rfl⟩
  have hpass : Hushes p q := hq ▸ .of_frame rfl rfl rfl
  unfold Playback.passTo
  dsimp only
  rw [← hq]
  split
  · exact hpass
  · exact hpass.trans (.endOfScript q .endOfScript)

theorem leaveWait (env : Env) (p : Playback) (delta : Nanoseconds) :
    Hushes p (p.leaveWait env delta).1 := by
  obtain ⟨t, h⟩ | ⟨t, h⟩ := leaveWait_cases env p delta <;> rw [h] <;> exact .of_frame rfl rfl rfl

end Hushes

/-- The end of playback ends a run forward. -/
theorem Mute.stop (p : Playback) (reason : StopReason) : Mute p (p.stop reason) := by
  have hcancel := Hushes.cancelActive p
  unfold Playback.stop
  generalize p.cancelActive = u at hcancel ⊢
  exact hcancel.toMute.trans (Mute.trans (q := { u with player := { u.player with
    cursor := { u.cursor with index := none, waiting := false }
    halted := false
    fastForward := none } }) (.of_frame rfl rfl) (.emit _ fun _ => rfl))

theorem Mute.reach (p : Playback) : Mute p p.reach.1 := by
  unfold Playback.reach checkForward
  split
  · split
    · exact .refl p
    · split
      · exact .of_frame rfl rfl
      · exact .refl p
  · exact .refl p

namespace Sounds

theorem refl (p : Playback) : Sounds p p :=
  (Mute.refl p).sounds

theorem after (h : Hushes p q) (h' : Sounds q r) : Sounds p r :=
  ⟨h.toMute.tells.trans h'.tells, fun hf => h.toMute.trans (h'.mute (h.forward ▸ hf))⟩

/-- Skip ends only when no run forward is under way. -/
theorem stopSkip (p : Playback) :
    Sounds p (if p.player.fastForward.isNone then p.setSkip false else p) := by
  cases hf : p.player.fastForward with
  | none => exact ⟨.setSkip p false, fun h => absurd hf h⟩
  | some f => exact .refl p

theorem onward (h : Sounds p q) (hf : q.player.fastForward = p.player.fastForward)
    (h' : Sounds q r) : Sounds p r :=
  ⟨h.tells.trans h'.tells, fun hp => (h.mute hp).trans (h'.mute (hf ▸ hp))⟩

theorem presentChoices (p : Playback) : Sounds p p.presentChoices := by
  have hskip := stopSkip p
  unfold Playback.presentChoices
  dsimp only
  generalize (if p.player.fastForward.isNone then p.setSkip false else p) = q at hskip ⊢
  have hrest := (Hushes.enterWait q).toMute.trans
    (.emit q.enterWait (e := .choicePresented p.services.pendingChoices) fun _ => rfl)
  exact ⟨hskip.tells.trans hrest.tells, fun hf => (hskip.mute hf).trans hrest⟩

theorem settle (p : Playback) (c : Completion) (adds : Bool) : Sounds p (p.settle c adds) := by
  unfold Playback.settle
  split
  · exact .refl p
  · split
    · have hhalt : Mute p { p with player := { p.player with halted := true } } := .of_frame rfl rfl
      exact (hhalt.trans (.emit _ (e := .stopped .command) fun _ => rfl)).sounds
    · split
      · exact .presentChoices p
      · split
        · exact (Hushes.enterWait p).toMute.sounds
        · exact .refl p

theorem complete (env : Env) (p : Playback) (index : Nat) (c : Completion) (eligible : Bool) :
    Sounds p (p.complete env index c eligible).1 := by
  unfold Playback.complete
  cases hd : p.player.document with
  | none => exact .refl p
  | some d =>
    have hfollow := Hushes.follow env hd index c.flow
    dsimp only
    generalize p.follow env d index c.flow = r at hfollow ⊢
    obtain ⟨q, e | ⟨next, i⟩⟩ := r
    · exact .after hfollow (Mute.stop q _).sounds
    · have hlock := hfollow.trans (.lockNewest q c.allowRollback)
      dsimp only
      split
      · exact .after ((hlock.trans (.capture _ next i c)).trans (.moveTo _ next i _)) (.settle _ _ _)
      · exact .after (hlock.trans (.moveTo _ next i _)) (.settle _ _ _)

theorem reported (env : Env) (p : Playback) (spot : Spot) (name : String) :
    Sounds p (p.reported env spot name) := by
  obtain ⟨q, hq⟩ : ∃ q, q = p.withCursor { p.cursor with played := p.cursor.played + 1 } := ⟨_, rfl⟩
  have hcount : Hushes p q := hq ▸ .of_frame rfl rfl rfl
  have htrack : Sounds q (q.trackRead env spot) := by
    unfold trackRead
    cases q.services.played with
    | none => exact .refl q
    | some played =>
      obtain ⟨u, hu⟩ : ∃ u, u = q.withServices { q.services with
          played := some (played.mark spot.script spot.index) } := ⟨_, rfl⟩
      have hmark : Hushes q u := hu ▸ .of_frame rfl rfl rfl
      dsimp only
      rw [← hu]
      split
      · rename_i hleaves
        simp only [Bool.and_eq_true] at hleaves
        have hnone : q.player.fastForward = none := by
          rw [hu] at hleaves
          exact Option.isNone_iff_eq_none.1 hleaves.1.2
        exact ⟨hmark.toMute.tells.trans (.setSkip u false), fun hf => absurd hnone hf⟩
      · exact hmark.toMute.sounds
  unfold Playback.reported
  rw [← hq]
  have htell := Mute.emit (q.trackRead env spot) (e := .commandExecuted spot name) fun _ => rfl
  exact .after hcount ⟨htrack.tells.trans htell.tells, fun hf => (htrack.mute hf).trans htell⟩

theorem begin (env : Env) (p : Playback) (d : Document) (i : Nat) (c : Command) (h : Handler) :
    Sounds p (p.begin env d i c h).1 := by
  have hreport := Sounds.reported env p ⟨d.name, i⟩ c.name
  have hforward := congrArg Backdrop.fastForward
    (reported_eq env p ⟨d.name, i⟩ c.name).2.2.1.backdrop
  rw [begin_eq]
  generalize p.reported env ⟨d.name, i⟩ c.name = q at hreport hforward ⊢
  cases h.begin c with
  | ok task => exact hreport.onward hforward (Mute.sounds (p := q) (.of_frame rfl rfl))
  | error f =>
    dsimp only
    rw [fst_passed]
    exact hreport.onward hforward
      (.after (Hushes.reportFault q ⟨d.name, i⟩ f.message) (.complete env _ i _ _))

theorem arrive (env : Env) (p : Playback) : Sounds p (p.arrive env) := by
  unfold Playback.arrive
  split
  · split
    · exact (Hushes.passTo p _ _).toMute.sounds
    · split
      · exact .after (q := p.entering) (.of_frame rfl rfl rfl) (.begin env _ _ _ _ _)
      · exact .refl p
  · exact .refl p

theorem stepActive (env : Env) (p : Playback) (a : ActiveCommand) (delta : Nanoseconds) :
    Sounds p (p.stepActive env a delta).1 := by
  cases hd : p.player.document with
  | none =>
    rw [stepActive_of_no_document hd]
    exact .refl p
  | some d =>
    cases hc : d.command? a.index with
    | none =>
      rw [stepActive_of_no_command hd hc]
      exact Mute.sounds (p := p) (.of_frame rfl rfl)
    | some c =>
      rw [stepActive_eq hd hc]
      generalize a.task.step _ p.services = r
      obtain ⟨progress, s⟩ := r
      have hreleased : Hushes p (p.released s) := .of_frame rfl rfl rfl
      obtain ⟨task, why⟩ | ⟨done⟩ | ⟨f⟩ := progress
      · exact Mute.sounds (p := p) (.of_frame rfl rfl)
      · dsimp only
        rw [fst_finished]
        exact .after hreleased (.complete env _ _ _ _)
      · dsimp only
        rw [fst_finished]
        exact .after (hreleased.trans (.reportFault _ ⟨d.name, a.index⟩ f.message))
          (.complete env _ _ _ _)

end Sounds

theorem Step.sounds (h : Step env p q) : Sounds p q := by
  cases h with
  | interrupt hc => exact (Hushes.interrupt p).toMute.sounds
  | leave delta => exact (Hushes.leaveWait env p delta).toMute.sounds
  | goOn => exact (Hushes.continueInput p).toMute.sounds
  | reach hb ha => exact (Mute.reach p).sounds
  | arrive hrun ha hreach => exact .arrive env p
  | work hrun ha delta => exact .stepActive env p _ delta

/-- A run forward is under way, or playback is over. -/
def Hasty (p : Playback) : Prop :=
  p.player.fastForward = none → p.cursor.index = none

theorem Hasty.running (hp : p.Hasty) (hrun : p.player.isRunning = true) :
    p.player.fastForward ≠ none :=
  fun h => index_of_isRunning hrun (hp h)

theorem Hasty.congr (hp : p.Hasty) (hf : q.player.fastForward = none → p.player.fastForward = none)
    (hi : q.cursor.index = p.cursor.index) : q.Hasty :=
  fun h => hi.trans (hp (hf h))

theorem Hasty.reined (hp : p.Hasty) (hrun : p.player.isRunning = true) (h : Reined p q) :
    q.Hasty := by
  intro hnone
  rcases h.forward with hsame | ⟨-, hover⟩
  · exact absurd (hsame.symm.trans hnone) (hp.running hrun)
  · exact hover

theorem forward_reach_none (h : p.reach.1.player.fastForward = none) :
    p.player.fastForward = none := by
  unfold Playback.reach checkForward at h
  split at h
  · split at h
    · assumption
    · split at h
      · cases h
      · exact h
  · exact h

/-- A step in a run forward is mute, and so are all that follow. -/
theorem Step.hasty (h : Step env p q) (hp : p.Hasty) : Mute p q ∧ q.Hasty := by
  have hsounds := h.sounds
  cases h with
  | interrupt hc =>
    have hkept := Hushes.interrupt p
    exact ⟨hkept.toMute, hp.congr (fun h => hkept.forward ▸ h)
      (congrArg Bearings.index p.interrupt_bearings)⟩
  | leave delta =>
    have hkept := Hushes.leaveWait env p delta
    exact ⟨hkept.toMute, hp.congr (fun h => hkept.forward ▸ h)
      (congrArg Bearings.index (p.bearings_leaveWait env delta))⟩
  | goOn =>
    have hkept := Hushes.continueInput p
    exact ⟨hkept.toMute, hp.congr (fun h => hkept.forward ▸ h)
      (congrArg Bearings.index p.bearings_continueInput)⟩
  | reach hb ha =>
    exact ⟨Mute.reach p, hp.congr forward_reach_none (congrArg Bearings.index p.bearings_reach)⟩
  | arrive hrun ha hreach =>
    exact ⟨hsounds.mute (hp.running hrun), hp.reined hrun (arrive_reined env ha)⟩
  | work hrun ha delta =>
    exact ⟨hsounds.mute (hp.running hrun), hp.reined hrun (stepActive_reined env p _ delta)⟩

theorem Path.tells {l : List Playback} (h : Path env p l q) : Tells p q :=
  h.keeps (I := Tells p) (fun _ _ hstep hp => hp.trans hstep.sounds.tells) (.refl p)

theorem Path.mute {l : List Playback} (h : Path env p l q) (hp : p.Hasty) : Mute p q :=
  (h.keeps (I := fun q => Mute p q ∧ q.Hasty)
    (fun _ _ hstep hq => ⟨hq.1.trans (hstep.hasty hq.2).1, (hstep.hasty hq.2).2⟩)
    ⟨.refl p, hp⟩).1

/-- A run forward tells nothing and gives the modes back as they were. -/
theorem Mute.fastForward (hs : Steps env p) (target : Nat) :
    Mute p (p.fastForward env target).1 := by
  rcases fastForward_cases env p target with ⟨hsame, -⟩ | ⟨f, hend, -⟩
  · rw [hsame]
    exact .refl p
  · have hhasten : Steps env (p.hasten f) := ⟨hs.registry, hs.read, hs.placed⟩
    obtain ⟨l, hpath⟩ :=
      forward_path p.cursor.played (env.config.fastForwardLimit + 1) hhasten
    have hquiet := hpath.mute (fun hnone => nomatch hnone)
    rw [hend]
    generalize (Playback.forward env p.cursor.played _ (p.hasten f)).1 = q at hquiet ⊢
    exact ⟨hquiet.told, congrArg (Modes.mk p.cursor.skipping)
      (congrArg Modes.autoPlaying hquiet.modes)⟩

namespace Tells

theorem settleWaiting (p : Playback) (waiting : Bool) : Tells p (p.settleWaiting waiting) := by
  unfold Playback.settleWaiting
  split
  · exact (Sounds.presentChoices p).tells
  · split
    · exact (Hushes.enterWait p).toMute.tells
    · exact .refl p

/-- Another position with the same modes. -/
theorem placed (p : Playback) (player : Player)
    (hskip : player.cursor.skipping = p.cursor.skipping)
    (hauto : player.cursor.autoPlaying = p.cursor.autoPlaying) :
    Tells p { p with player := player } :=
  .of_frame rfl (congrArg₂ Modes.mk hskip hauto)

theorem start (p : Playback) (d : Document) (i : Nat) : Tells p (p.start d i) := by
  have hoff := (Hushes.cancelActive p).toMute.tells.trans (setSkip p.cancelActive false)
  have hskip : (p.cancelActive.setSkip false).cursor.skipping = false := by
    unfold Playback.setSkip
    split
    · assumption
    · rfl
  unfold Playback.start
  dsimp only
  generalize p.cancelActive.setSkip false = u at hoff hskip ⊢
  have henter := hoff.trans (Hushes.emit u (e := .play d.name) fun _ => rfl).toMute.tells
  obtain ⟨v, hv⟩ : ∃ v, v = u.emit (.play d.name) := ⟨_, rfl⟩
  rw [← hv] at henter ⊢
  have hvskip : v.cursor.skipping = false := by rw [hv]; exact hskip
  obtain ⟨w, hw⟩ : ∃ w : Playback, w = { v with player := { v.player with
      cursor := { script := d.name, revision := d.revision, index := some i,
                  autoPlaying := v.cursor.autoPlaying }
      document := some d
      halted := false
      arrivedByBranch := false
      waitElapsed := 0
      fastForward := none } } := ⟨_, rfl⟩
  have hmoved : Tells p w := henter.trans (hw ▸ placed v _ hvskip.symm rfl)
  rw [← hw]
  split
  · exact hmoved.trans (Hushes.endOfScript w .endOfScript).toMute.tells
  · exact hmoved

theorem restorePosition (p : Playback) (d : Document) (i played : Nat) (waiting : Bool) :
    Tells p (p.restorePosition d i played waiting) := by
  have hoff := ((Hushes.cancelActive p).toMute.tells.trans (setSkip p.cancelActive false)).trans
    (Hushes.enterScript (p.cancelActive.setSkip false) d).toMute.tells
  unfold Playback.restorePosition
  generalize (p.cancelActive.setSkip false).enterScript d = u at hoff ⊢
  dsimp only
  refine (hoff.trans ?_).trans (settleWaiting _ waiting)
  exact placed u _ rfl rfl

end Tells

end Playback

end Playhead
