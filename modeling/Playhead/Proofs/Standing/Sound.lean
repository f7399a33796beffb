import Playhead.Proofs.Script.Staged
import Playhead.Proofs.Standing.Builtin
import Playhead.Proofs.Standing.Complete
import Playhead.Proofs.Standing.Path

/-!
Whatever commands a tick plays, those of the host included, what was noted before stays noted.

Playback whose scripts are what reading gave moves along its standings.
-/

namespace Playhead.Playback

/-- The result of a step that completed its command. -/
def finished (r : Playback × Except JumpError Unit) : Playback × Except JumpError Bool :=
  match r with
  | (p, .ok ()) => (p, .ok true)
  | (p, .error e) => (p, .error e)

theorem fst_finished (r : Playback × Except JumpError Unit) : (finished r).1 = r.1 := by
  obtain ⟨q, e | u⟩ := r <;> rfl

theorem eq_error_of_finished {r : Playback × Except JumpError Unit} {q : Playback} {e : JumpError}
    (h : finished r = (q, .error e)) : r = (q, .error e) := by
  obtain ⟨q, e | u⟩ := r <;> cases h
  rfl

def Grows (p q : Playback) : Prop :=
  p.plot <+: q.plot

namespace Grows

variable {p q r : Playback}

theorem refl (p : Playback) : Grows p p := List.prefix_refl _

theorem trans (h : Grows p q) (h' : Grows q r) : Grows p r := List.IsPrefix.trans h h'

theorem of_eq (h : q.plot = p.plot) : Grows p q :=
  ⟨[], by rw [List.append_nil, h]⟩

theorem after (h : Grows q r) (hq : q.plot = p.plot) : Grows p r := (of_eq hq).trans h

theorem emit (p : Playback) (e : Event) : Grows p (p.emit e) := by
  unfold Grows
  rw [plot_emit]
  exact List.prefix_append _ _

theorem cancelActive (p : Playback) : Grows p p.cancelActive := by
  unfold Playback.cancelActive
  split
  · exact refl p
  · exact of_eq rfl

theorem stop (p : Playback) (reason : StopReason) : Grows p (p.stop reason) :=
  (cancelActive p).trans ((of_eq rfl).trans (emit _ _))

theorem moveTo (p : Playback) (d : Document) (index : Nat) (atEnd : StopReason) :
    Grows p (p.moveTo d index atEnd) := by
  unfold Grows
  rw [plot_moveTo]
  exact List.prefix_append _ _

theorem settle (p : Playback) (done : Completion) (adds : Bool) :
    Grows p (p.settle done adds) := by
  unfold Grows
  rw [(settle_eq p done adds).2.1]
  exact List.prefix_append _ _

theorem capture (p : Playback) (d : Document) (next : Nat) (done : Completion) :
    Grows p (p.capture d next done) := by
  obtain ⟨q, m, hq, he, -⟩ := capture_eq p d next done
  rw [he]
  exact of_eq hq.plot

theorem complete (env : Env) (p : Playback) (index : Nat) (done : Completion)
    (eligible : Bool) : Grows p (p.complete env index done eligible).1 := by
  unfold Playback.complete
  split
  · exact refl p
  · rename_i d hd
    obtain ⟨k, hk, -⟩ := follow_eq env hd index done.flow
    obtain ⟨q, hq⟩ : ∃ q : Playback, q = { p with
        library := k
        player := { p.player with arrivedByBranch := p.standing.arrives d index done.flow } } :=
      ⟨_, rfl⟩
    have hplot : Grows p q := of_eq (by rw [hq]; rfl)
    rw [hk, ← hq]
    refine hplot.trans ?_
    cases (p.shelf env).follow d index done.flow with
    | error e => exact stop _ _
    | ok r =>
      obtain ⟨next, i⟩ := r
      obtain ⟨m, hm, -⟩ := lockNewest_eq q done.allowRollback
      dsimp only
      rw [hm]
      refine Grows.trans ?_ ((moveTo _ next i _).trans (settle _ _ _))
      split
      · exact Grows.trans (q := { q with manager := m }) (of_eq rfl) (capture _ next i done)
      · exact of_eq rfl

theorem begin (env : Env) (p : Playback) (d : Document) (index : Nat) (c : Command)
    (h : Handler) : Grows p (p.begin env d index c h).1 := by
  unfold Playback.begin
  have hstart : Grows p (((p.withCursor { p.cursor with played := p.cursor.played + 1 }).trackRead
      env ⟨d.name, index⟩).emit (.commandExecuted ⟨d.name, index⟩ c.name)) := by
    refine Grows.trans (of_eq ?_) (emit _ _)
    exact (Stays.trackRead env _ _).plot
  split
  · exact hstart.trans (of_eq rfl)
  · rename_i f _
    have hc := (hstart.trans (of_eq (Stays.reportFault _ ⟨d.name, index⟩ f.message).plot)).trans
      (complete env _ index (.ofFault c.role) h.eligible)
    dsimp only at hc ⊢
    split <;> rename_i he <;> rw [he] at hc <;> exact hc

theorem checkForward (p : Playback) (d : Document) (index : Nat) :
    Grows p (p.checkForward d index).1 := by
  unfold Playback.checkForward
  split
  · exact refl p
  · dsimp only
    split
    · exact of_eq rfl
    · exact refl p

theorem finished {r : Playback × Except JumpError Unit} (h : Grows p r.1) :
    Grows p (Playback.finished r).1 := by
  obtain ⟨q, u | e⟩ := r <;> exact h

theorem stepActive (env : Env) (p : Playback) (a : ActiveCommand) (delta : Nanoseconds) :
    Grows p (p.stepActive env a delta).1 := by
  unfold Playback.stepActive
  dsimp only
  split
  · exact refl p
  · split
    · exact of_eq rfl
    · have hc : ∀ q : Playback, Grows p q → ∀ done : Completion,
          Grows p (Playback.finished (q.complete env a.index done a.eligible)).1 :=
        fun q hq done => finished (hq.trans (complete env q a.index done a.eligible))
      split
      · exact of_eq rfl
      · refine hc _ ?_ _
        exact of_eq rfl
      · refine hc _ ?_ _
        exact of_eq (Stays.reportFault _ _ _).plot

theorem kept (env : Env) (p : Playback) : Kept env (Grows p) where
  begins _ h := h.trans (begin env _ _ _ _ _)
  steps delta _ h := h.trans (stepActive env _ _ delta)
  reaches d i h := h.trans (checkForward _ d i)
  enters h := h.trans (of_eq rfl)
  faults spot message h := h.trans (of_eq (Stays.reportFault _ spot message).plot)
  moves _ h := h.trans (of_eq rfl)
  ends h := h.trans (Grows.trans (of_eq rfl) (emit _ _))
  drops h := h.trans (of_eq rfl)
  waits delta h := h.trans (of_eq (Stays.leaveWait env _ delta).plot)

theorem run (env : Env) (n : Nat) (delta : Nanoseconds) (p : Playback) :
    Grows p (p.run env n delta).1 :=
  (kept env p).run n delta (refl p)

theorem step_run (env : Env) (n : Nat) {a : ActiveCommand} (ha : p.player.active = some a)
    (delta : Nanoseconds) :
    Grows p (match p.stepActive env a delta with
      | (p, .error e) => (p, (.error e : Except JumpError Unit))
      | (p, .ok false) => (p, .ok ())
      | (p, .ok true) => Playback.run env n 0 p).1 :=
  (kept env p).step_run ((kept env p).run n 0) ha delta (refl p)

theorem interrupt (p : Playback) : Grows p p.interrupt := by
  refine (cancelActive p).trans ((emit _ _).after ?_)
  rfl

theorem tick (env : Env) (p : Playback) (delta : Nanoseconds) :
    Grows p (p.tick env delta).1 :=
  (kept env p).tick (fun h => h.trans (interrupt _)) delta (refl p)

end Grows

end Playhead.Playback

namespace Playhead

structure Shelf.Sound (w : Shelf) : Prop where
  registry : w.registry.Sound
  staged : ∀ name d, w.script name = .ok d → d.name = name ∧ d.Staged w.registry

namespace Shelf

variable {w : Shelf}

theorem Sound.mem_handlers (hw : w.Sound) {name : String} (hn : name ∈ Builtin.names)
    {h : Handler} (hh : w.registry.get? name = some h) : h ∈ Builtin.handlers := by
  obtain ⟨h', hm, rfl⟩ := List.mem_map.1 hn
  rw [hw.registry.builtin h' hm] at hh
  cases hh
  exact hm

theorem Sound.name_eq (hw : w.Sound) {name : String} (hn : name ∈ Builtin.names)
    {h : Handler} (hh : w.registry.get? name = some h) : h.name = name := by
  obtain ⟨h', hm, rfl⟩ := List.mem_map.1 hn
  rw [hw.registry.builtin h' hm] at hh
  cases hh
  rfl

theorem document_eq (hw : w.Sound) {d d' : Document} {name : String}
    (hd : w.script d.name = .ok d) (h : w.document d name = .ok d') :
    w.script d'.name = .ok d' := by
  unfold document at h
  split at h
  · cases h
    exact hd
  · split at h
    · rename_i hs
      cases h
      rw [(hw.staged _ _ hs).1]
      exact hs
    · cases h

theorem resolve_eq (hw : w.Sound) {d d' : Document} {target : JumpTarget} {i : Nat}
    (hd : w.script d.name = .ok d) (h : w.resolve d target = .ok (d', i)) :
    w.script d'.name = .ok d' := by
  unfold resolve at h
  cases target with
  | label script label =>
    dsimp only at h
    split at h
    · cases h
    · rename_i hdoc
      have hfound := document_eq hw hd hdoc
      split at h
      · cases h
        exact hfound
      · split at h
        · cases h
          exact hfound
        · cases h
  | spot s =>
    dsimp only at h
    split at h
    · cases h
    · rename_i hdoc
      split at h
      · cases h
      · cases h
        exact document_eq hw hd hdoc

/-- A flow leads to a script of the shelf. -/
theorem follow_on (hw : w.Sound) {d d' : Document} {index i : Nat} {flow : Flow}
    (hd : w.script d.name = .ok d) (h : w.follow d index flow = .ok (d', i)) :
    w.script d'.name = .ok d' := by
  cases flow with
  | jump target => exact resolve_eq hw hd h
  | _ =>
    cases h
    exact hd

end Shelf

namespace Standing

variable {w : Shelf} {s : Standing}

/-- A standing inside a script of the shelf, or where the story is over. -/
def Placed (w : Shelf) (s : Standing) : Prop :=
  ∀ d i, s.document = some d → s.index = some i → w.script d.name = .ok d ∧ i < d.size

theorem placed_moveTo (s : Standing) {d : Document} (hd : w.script d.name = .ok d) (i : Nat) :
    (s.moveTo d i).Placed w := by
  intro d' i' hd' hi'
  cases hd'
  have hi : (if i < d.size then some i else none) = some i' := hi'
  split at hi
  · rename_i hlt
    cases hi
    exact ⟨hd, hlt⟩
  · cases hi

theorem placed_finish (hw : w.Sound) (s : Standing) {d : Document}
    (hd : w.script d.name = .ok d) (index : Nat) (done : Completion) (after : ServiceSet) :
    (s.finish w d index done after).2.Placed w := by
  unfold finish
  dsimp only
  cases hf : w.follow d index done.flow with
  | error e =>
    intro d' i' _ hi
    cases hi
  | ok r => exact placed_moveTo _ (Shelf.follow_on hw hd hf) _

end Standing

namespace Playback

/-- The command in flight is the one at the cursor. If it is a built-in one, it is in flight as it
was begun there. -/
structure InFlight (env : Env) (p : Playback) (a : ActiveCommand) (d : Document) (c : Command)
    (h : Handler) : Prop where
  document : p.player.document = some d
  index : p.cursor.index = some a.index
  command : d.command? a.index = some c
  handler : env.source.registry.get? c.name = some h
  role : h.role = c.role
  eligible : a.eligible = h.eligible
  fresh : p.player.arrivedByBranch = false
  begun : c.name ∈ Builtin.names → ∃ t, h.begin c = .ok t ∧ t.Underway a.task

/-- Playback of scripts that were read, which nothing has cancelled. -/
structure Grounded (env : Env) (p : Playback) : Prop where
  shelf : (p.shelf env).Sound
  live : p.scopes.isCancelled p.player.scope = false
  forward : p.player.fastForward = none
  placed : p.standing.Placed (p.shelf env)

/-- Grounded playback with nothing in flight but the command at the cursor. -/
structure Live (env : Env) (p : Playback) : Prop extends Grounded env p where
  active : ∀ a, p.player.active = some a → ∃ d c h, InFlight env p a d c h

/-- Live playback with no command of the host in flight. -/
structure Sound (env : Env) (p : Playback) : Prop extends Live env p where
  builtin : ∀ name, p.standing.Current name → name ∈ Builtin.names

variable {env : Env} {p q : Playback}

theorem InFlight.current {a : ActiveCommand} {d : Document} {c : Command} {h : Handler}
    (hf : InFlight env p a d c h) (ha : p.player.active = some a) : p.standing.Current c.name := by
  refine ⟨?_, d, a.index, c, hf.document, hf.index, hf.command, rfl⟩
  show p.player.active.isSome = true
  rw [ha]
  rfl

/-- A built-in command in flight, with the task that it has begun. -/
theorem Sound.flight (hp : Sound env p) {a : ActiveCommand} (ha : p.player.active = some a) :
    ∃ d c h t, InFlight env p a d c h ∧ h ∈ Builtin.handlers ∧ h.begin c = .ok t ∧
      t.Underway a.task := by
  obtain ⟨d, c, h, hf⟩ := hp.active a ha
  have hname := hp.builtin _ (hf.current ha)
  obtain ⟨t, hb, ht⟩ := hf.begun hname
  exact ⟨d, c, h, t, hf, hp.shelf.mem_handlers hname hf.handler, hb, ht⟩

theorem Grounded.sound (hp : Grounded env p) (ha : p.player.active = none) : Sound env p where
  toGrounded := hp
  active a h := by rw [ha] at h; cases h
  builtin name hc := by
    have hbusy : p.player.active.isSome = true := hc.1
    rw [ha] at hbusy
    cases hbusy

theorem InFlight.congr {a : ActiveCommand} {d : Document} {c : Command} {h : Handler}
    (hf : InFlight env p a d c h) (hd : q.player.document = p.player.document)
    (hi : q.cursor.index = p.cursor.index)
    (hb : q.player.arrivedByBranch = p.player.arrivedByBranch) : InFlight env q a d c h :=
  ⟨hd.trans hf.document, hi.trans hf.index, hf.command, hf.handler, hf.role, hf.eligible,
    hb.trans hf.fresh, hf.begun⟩

end Playback

end Playhead
