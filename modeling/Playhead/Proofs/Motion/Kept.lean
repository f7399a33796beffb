import Playhead.Playback.Tick

/-!
What every part of a tick keeps, ticks and runs forward keep.
-/

namespace Playhead.Playback

/-- In a wait for input time passes at most, or the wait is over. -/
theorem leaveWait_cases (env : Env) (p : Playback) (delta : Nanoseconds) :
    (∃ t, p.leaveWait env delta =
      ({ p with player := { p.player with waitElapsed := t } }, false)) ∨
    ∃ t, p.leaveWait env delta = ({ p with player := { p.player with
      cursor := { p.cursor with waiting := false }, waitElapsed := t } }, true) := by
  unfold leaveWait
  -- With `dsimp only` the kernel would compare the delays by counting them down.
  simp only
  split
  · exact .inl ⟨_, rfl⟩
  · split
    · exact .inr ⟨_, rfl⟩
    · split
      · split
        · exact .inr ⟨_, rfl⟩
        · exact .inl ⟨_, rfl⟩
      · exact .inl ⟨_, rfl⟩

theorem leaveWait_of_choices {p : Playback} (h : p.choicesPending = true) (env : Env)
    (delta : Nanoseconds) : p.leaveWait env delta = (p, false) := by
  unfold leaveWait
  rw [if_pos h]

/-- A property that is kept wherever playback starts or steps a command, leaves commands out, comes
to the end of a script or to the point it runs to, drops a command, or waits. -/
structure Kept (env : Env) (I : Playback → Prop) : Prop where
  begins {p : Playback} {d : Document} {i : Nat} {c : Command} {h : Handler} :
    env.source.registry.get? c.name = some h → I p → I (p.begin env d i c h).1
  steps {p : Playback} {a : ActiveCommand} (delta : Nanoseconds) :
    p.player.active = some a → I p → I (p.stepActive env a delta).1
  reaches {p : Playback} (d : Document) (i : Nat) : I p → I (p.checkForward d i).1
  enters {p : Playback} : I p → I { p with player := { p.player with arrivedByBranch := false } }
  faults {p : Playback} (spot : Spot) (message : String) : I p → I (p.reportFault spot message)
  moves {p : Playback} (next : Nat) : I p → I (p.withCursor { p.cursor with index := some next })
  ends {p : Playback} : I p → I (p.endOfScript .endOfScript)
  drops {p : Playback} : I p → I { p with player := { p.player with active := none } }
  waits {p : Playback} (delta : Nanoseconds) : I p → I (p.leaveWait env delta).1

namespace Kept

variable {env : Env} {I : Playback → Prop} {p : Playback}

theorem beginWithin (hI : Kept env I) (n : Nat) (hp : I p) : I (p.beginWithin env n).1 := by
  induction n generalizing p with
  | zero => exact hp
  | succ n ih =>
    unfold Playback.beginWithin
    split
    · rename_i i d _ _
      split
      · exact hI.ends hp
      · have hcheck := hI.reaches d i hp
        generalize p.checkForward d i = r at hcheck ⊢
        obtain ⟨q, _ | _⟩ := r
        · have henter := hI.enters hcheck
          dsimp only
          split
          · exact ih (hI.moves _ henter)
          · split
            · rename_i h hh
              exact hI.begins hh henter
            · exact ih (hI.moves _ (hI.faults _ _ henter))
        · exact hcheck
    · exact hp

/-- Stepping the command in flight and then running on. -/
theorem step_run (hI : Kept env I) {n : Nat} (hrest : ∀ {q}, I q → I (Playback.run env n 0 q).1)
    {a : ActiveCommand} (ha : p.player.active = some a) (delta : Nanoseconds) (hp : I p) :
    I (match p.stepActive env a delta with
      | (p, .error e) => (p, (.error e : Except JumpError Unit))
      | (p, .ok false) => (p, .ok ())
      | (p, .ok true) => Playback.run env n 0 p).1 := by
  have hstep := hI.steps delta ha hp
  generalize p.stepActive env a delta = r at hstep ⊢
  obtain ⟨q, e | (_ | _)⟩ := r
  · exact hstep
  · exact hstep
  · exact hrest hstep

theorem run (hI : Kept env I) (n : Nat) (delta : Nanoseconds) (hp : I p) :
    I (p.run env n delta).1 := by
  induction n generalizing p delta with
  | zero => exact hp
  | succ n ih =>
    unfold Playback.run
    split
    · exact hp
    · have hbegin : I (p.beginNext env).1 := hI.beginWithin _ hp
      generalize p.beginNext env = r at hbegin ⊢
      obtain ⟨q, e | (_ | _ | _)⟩ := r
      · exact hbegin
      · dsimp only at hbegin ⊢
        cases ha : q.player.active with
        | none => exact hbegin
        | some a => exact hI.step_run (ih 0) ha delta hbegin
      · exact ih delta hbegin
      · exact hbegin

theorem advance (hI : Kept env I) (delta : Nanoseconds) (hp : I p) :
    I (p.advance env delta).1 := by
  unfold Playback.advance
  cases ha : p.player.active with
  | none => exact hI.run _ delta hp
  | some a =>
    dsimp only
    split
    · exact hI.run _ delta (hI.drops hp)
    · exact hI.step_run (hI.run _ 0) ha delta hp

theorem tick (hI : Kept env I) (hhalt : ∀ {q}, I q → I q.interrupt) (delta : Nanoseconds)
    (hp : I p) : I (p.tick env delta).1 := by
  unfold Playback.tick
  split
  · exact hp
  · split
    · exact hhalt hp
    · split
      · have hleave := hI.waits delta hp
        generalize p.leaveWait env delta = r at hleave ⊢
        obtain ⟨q, _ | _⟩ := r
        · exact hleave
        · exact hI.advance delta hleave
      · exact hI.advance delta hp

/-- A run forward changes playback by its ticks alone. -/
theorem forward (hI : Kept env I) (hhalt : ∀ {q}, I q → I q.interrupt) (startedAt left : Nat)
    (hp : I p) : I (Playback.forward env startedAt left p).1 := by
  induction left generalizing p with
  | zero =>
    unfold Playback.forward
    split
    · exact hp
    · split
      · exact hp
      · split <;> exact hp
  | succ left ih =>
    unfold Playback.forward
    split
    · exact hp
    · split
      · exact hp
      · split
        · exact hp
        · have htick := hI.tick hhalt 0 hp
          dsimp only
          generalize p.tick env 0 = r at htick ⊢
          obtain ⟨q, e | u⟩ := r
          · exact htick
          · exact ih htick

/-- A run forward skips, and ends with the skip mode that it began with. -/
theorem fastForward (hI : Kept env I) (hhalt : ∀ {q}, I q → I q.interrupt)
    (hframe : ∀ {q : Playback} (skipping : Bool) (f : Option FastForward), I q → I { q with
      player := { q.player with
        cursor := { q.cursor with skipping := skipping }, fastForward := f } })
    (target : Nat) (hp : I p) : I (p.fastForward env target).1 := by
  unfold Playback.fastForward
  split
  · split
    · exact hp
    · split
      · exact hp
      · exact hframe _ none (hI.forward hhalt _ _ (hframe true _ hp))
  · exact hp

end Kept

end Playhead.Playback
