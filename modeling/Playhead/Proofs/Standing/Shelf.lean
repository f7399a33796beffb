import Playhead.Proofs.Standing.Basic

/-!
The standing of main playback, and what each move of the player does to it.

Reading a script for a jump leaves every name to stand for the script it stood for before.
-/

namespace Playhead

/-- Whether an event is noted of a step: a start, a presentation or an end. -/
def Event.isPlot : Event → Bool
  | .commandExecuted _ _ | .choicePresented _ | .stopped _ => true
  | _ => false

namespace Playback

def standing (p : Playback) : Standing where
  document := p.player.document
  index := p.cursor.index
  arrived := p.player.arrivedByBranch
  busy := p.player.active.isSome
  played := p.cursor.played
  services := p.services.story

/-- The events that are noted of steps, oldest first. -/
def plot (p : Playback) : List Event :=
  p.scene.events.filter Event.isPlot

def shelf (env : Env) (p : Playback) : Shelf where
  registry := env.source.registry
  script name := (p.library.load env.source name).map Prod.fst

/-- What no command of a script touches. -/
structure Backdrop where
  library : ScriptLibrary
  scopes : Cancellations
  scope : CancelScope
  fastForward : Option FastForward

def backdrop (p : Playback) : Backdrop :=
  ⟨p.library, p.scopes, p.player.scope, p.player.fastForward⟩

theorem shelf_of_backdrop {p q : Playback} (env : Env) (h : q.backdrop = p.backdrop) :
    q.shelf env = p.shelf env := by
  have hl : q.library = p.library := congrArg Backdrop.library h
  unfold shelf
  rw [hl]

theorem plot_emit (p : Playback) (e : Event) :
    (p.emit e).plot = p.plot ++ [e].filter Event.isPlot := by
  rw [plot, emit, Scene.events_emit, List.filter_append]
  rfl

/-- A move that takes no snapshot and starts or drops no command. -/
structure Keeps (p q : Playback) : Prop where
  backdrop : q.backdrop = p.backdrop
  manager : q.manager = p.manager
  active : q.player.active = p.player.active

theorem Keeps.trans {p q r : Playback} (h : Keeps p q) (h' : Keeps q r) : Keeps p r :=
  ⟨h'.backdrop.trans h.backdrop, h'.manager.trans h.manager, h'.active.trans h.active⟩

/-- A move that does not change the standing either, and notes nothing. -/
structure Stays (p q : Playback) : Prop extends Keeps p q where
  standing : q.standing = p.standing
  plot : q.plot = p.plot
  halted : q.player.halted = true → p.player.halted = true

namespace Stays

variable {p q r : Playback}

theorem refl (p : Playback) : Stays p p :=
  ⟨⟨rfl, rfl, rfl⟩, rfl, rfl, id⟩

theorem trans (h : Stays p q) (h' : Stays q r) : Stays p r :=
  ⟨h.toKeeps.trans h'.toKeeps, h'.standing.trans h.standing, h'.plot.trans h.plot,
    fun hq => h.halted (h'.halted hq)⟩

theorem emit (p : Playback) {e : Event} (he : e.isPlot = false) : Stays p (p.emit e) := by
  refine ⟨⟨rfl, rfl, rfl⟩, rfl, ?_, id⟩
  rw [plot_emit]
  simp [he]

theorem setSkip (p : Playback) (on : Bool) : Stays p (p.setSkip on) := by
  unfold Playback.setSkip
  split
  · exact refl p
  · have h : Stays p (p.withCursor { p.cursor with skipping := on }) :=
      ⟨⟨rfl, rfl, rfl⟩, rfl, rfl, id⟩
    exact h.trans (emit _ rfl)

theorem setAutoPlay (p : Playback) (on : Bool) : Stays p (p.setAutoPlay on) := by
  unfold Playback.setAutoPlay
  split
  · exact refl p
  · have h : Stays p { p with player := { p.player with
        cursor := { p.cursor with autoPlaying := on }, waitElapsed := 0 } } :=
      ⟨⟨rfl, rfl, rfl⟩, rfl, rfl, id⟩
    exact h.trans (emit _ rfl)

theorem enterWait (p : Playback) : Stays p p.enterWait := by
  have h : Stays p { p with player := { p.player with
      cursor := { p.cursor with waiting := true }, waitElapsed := 0 } } :=
    ⟨⟨rfl, rfl, rfl⟩, rfl, rfl, id⟩
  exact h.trans (emit _ rfl)

theorem reportFault (p : Playback) (s : Spot) (message : String) :
    Stays p (p.reportFault s message) :=
  emit p rfl

theorem enterScript (p : Playback) (d : Document) : Stays p (p.enterScript d) := by
  unfold Playback.enterScript
  split
  · exact refl p
  · exact emit p rfl

theorem trackRead (env : Env) (p : Playback) (s : Spot) : Stays p (p.trackRead env s) := by
  unfold Playback.trackRead
  split
  · exact refl p
  · rename_i played _
    have h : Stays p (p.withServices { p.services with
        played := some (played.mark s.script s.index) }) :=
      ⟨⟨rfl, rfl, rfl⟩, rfl, rfl, id⟩
    dsimp only
    split
    · exact h.trans (setSkip _ false)
    · exact h

theorem continueInput (p : Playback) : Stays p p.continueInput := by
  unfold Playback.continueInput
  split
  · exact refl p
  · exact ⟨⟨rfl, rfl, rfl⟩, rfl, rfl, id⟩

theorem resume (p : Playback) : Stays p { p with player := p.player.resume.1 } := by
  unfold Player.resume
  split
  · exact refl p
  · exact ⟨⟨rfl, rfl, rfl⟩, rfl, rfl, nofun⟩

theorem leaveWait (env : Env) (p : Playback) (delta : Nanoseconds) :
    Stays p (p.leaveWait env delta).1 := by
  obtain ⟨t, h⟩ | ⟨t, h⟩ := leaveWait_cases env p delta <;> rw [h] <;>
    exact ⟨⟨rfl, rfl, rfl⟩, rfl, rfl, id⟩

end Stays

end Playback

namespace ScriptLibrary

theorem reload_documents (l : ScriptLibrary) (m : NameMap Document) (source : Source)
    (name : String) :
    ((({ l with documents := m } : ScriptLibrary).reload source name).map Prod.fst) =
      (l.reload source name).map Prod.fst := by
  unfold reload insert path
  dsimp only
  split
  · rfl
  · split
    · rfl
    · split <;> rfl

/-- A library after a script was read from its resource. -/
theorem reload_eq_ok {l k : ScriptLibrary} {source : Source} {name : String} {d : Document}
    (h : l.reload source name = .ok (d, k)) :
    k = { l with documents := l.documents.insert name d } := by
  unfold reload insert at h
  split at h
  · cases h
  · split at h
    · cases h
    · split at h
      · cases h
        rfl
      · cases h

theorem waitByDefault_load {l k : ScriptLibrary} {source : Source} {name : String}
    {d : Document} (h : l.load source name = .ok (d, k)) :
    k.waitByDefault = l.waitByDefault := by
  unfold load at h
  split at h
  · cases h
    rfl
  · rw [reload_eq_ok h]

theorem load_map_fst_of_load {l k : ScriptLibrary} {source : Source} {name : String}
    {d : Document} (h : l.load source name = .ok (d, k)) (other : String) :
    (k.load source other).map Prod.fst = (l.load source other).map Prod.fst := by
  cases hg : l.get? name with
  | some d' =>
    have hk : l.load source name = .ok (d', l) := by rw [load, hg]
    rw [hk] at h
    cases h
    rfl
  | none =>
    have hr : l.reload source name = .ok (d, k) := by rwa [load, hg] at h
    have hk := reload_eq_ok hr
    have hget : k.get? other = if name = other then some d else l.get? other := by
      rw [hk]
      exact NameMap.get?_insert l.documents name other d
    by_cases hn : name = other
    · subst hn
      rw [if_pos rfl] at hget
      rw [load, hget, h]
    · rw [if_neg hn] at hget
      rw [load, load, hget]
      cases l.get? other with
      | some _ => rfl
      | none =>
        rw [hk]
        exact reload_documents l _ source other

end ScriptLibrary

namespace Playback

variable {env : Env}

theorem shelf_of_load {p : Playback} {k : ScriptLibrary} {name : String} {d : Document}
    (h : p.library.load env.source name = .ok (d, k)) :
    ({ p with library := k } : Playback).shelf env = p.shelf env := by
  unfold shelf
  congr 1
  funext other
  exact ScriptLibrary.load_map_fst_of_load h other

theorem documentFor_eq (env : Env) (p : Playback) (current : Document) (name : String) :
    ∃ k, p.documentFor env current name =
        ({ p with library := k }, (p.shelf env).document current name) ∧
      ({ p with library := k } : Playback).shelf env = p.shelf env := by
  unfold documentFor Shelf.document
  split
  · exact ⟨p.library, rfl, rfl⟩
  · cases h : p.library.load env.source name with
    | ok r =>
      obtain ⟨d, k⟩ := r
      have hs : (p.shelf env).script name = .ok d := by
        simp only [shelf, h]
        rfl
      refine ⟨k, ?_, shelf_of_load h⟩
      simp only [hs]
    | error e =>
      have hs : (p.shelf env).script name = .error e := by
        simp only [shelf, h]
        rfl
      refine ⟨p.library, ?_, rfl⟩
      simp only [hs]

/-- Looking up where a jump leads may read scripts and changes nothing else. -/
theorem resolveJump_library (env : Env) (p : Playback) (target : JumpTarget) :
    ∃ k : ScriptLibrary, k.waitByDefault = p.library.waitByDefault ∧
      (p.resolveJump env target).1 = { p with library := k } := by
  have hdocument : ∀ current name, ∃ k : ScriptLibrary,
      k.waitByDefault = p.library.waitByDefault ∧
        (p.documentFor env current name).1 = { p with library := k } := by
    intro current name
    unfold documentFor
    split
    · exact ⟨p.library, rfl, rfl⟩
    · split
      · rename_i h
        exact ⟨_, ScriptLibrary.waitByDefault_load h, rfl⟩
      · exact ⟨p.library, rfl, rfl⟩
  unfold resolveJump
  split
  · exact ⟨p.library, rfl, rfl⟩
  · rename_i current hcurrent
    split
    · rename_i script label
      have h := hdocument current (script.getD current.name)
      generalize p.documentFor env current (script.getD current.name) = r at h ⊢
      obtain ⟨q, e | d⟩ := r
      · exact h
      · dsimp only
        split
        · exact h
        · split <;> exact h
    · rename_i spot
      have h := hdocument current spot.script
      generalize p.documentFor env current spot.script = r at h ⊢
      obtain ⟨q, e | d⟩ := r
      · exact h
      · dsimp only
        split <;> exact h

/-- A jump is resolved as the shelf says, whatever scripts are read on the way. -/
theorem resolveJump_eq {p : Playback} {current : Document}
    (hd : p.player.document = some current) (target : JumpTarget) :
    ∃ k, p.resolveJump env target =
        ({ p with library := k }, (p.shelf env).resolve current target) ∧
      ({ p with library := k } : Playback).shelf env = p.shelf env := by
  unfold resolveJump Shelf.resolve
  simp only [hd]
  cases target with
  | label script label =>
    obtain ⟨k, hk, hs⟩ := documentFor_eq env p current (script.getD current.name)
    refine ⟨k, ?_, hs⟩
    simp only [hk]
    cases (p.shelf env).document current (script.getD current.name) with
    | error e => rfl
    | ok d =>
      cases label with
      | none => rfl
      | some label => cases h : d.labelIndex? label <;> simp only [h]
  | spot s =>
    obtain ⟨k, hk, hs⟩ := documentFor_eq env p current s.script
    refine ⟨k, ?_, hs⟩
    simp only [hk]
    cases (p.shelf env).document current s.script with
    | error e => rfl
    | ok d =>
      by_cases h : d.size < s.index <;> simp only [h, if_true, if_false]

/-- Following a flow reads scripts at most and notes where a branch that is not taken leads. -/
theorem follow_eq (env : Env) {p : Playback} {d : Document} (hd : p.player.document = some d)
    (index : Nat) (flow : Flow) :
    ∃ k, p.follow env d index flow =
        ({ p with
            library := k
            player := { p.player with arrivedByBranch := p.standing.arrives d index flow } },
          (p.shelf env).follow d index flow) ∧
      ({ p with library := k } : Playback).shelf env = p.shelf env := by
  cases flow with
  | advance | stop => exact ⟨p.library, rfl, rfl⟩
  | branch taken => exact ⟨p.library, rfl, rfl⟩
  | jump target => exact resolveJump_eq hd target

end Playback

end Playhead
