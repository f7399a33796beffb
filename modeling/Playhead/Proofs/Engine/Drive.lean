import Playhead.Engine.Choice
import Playhead.Proofs.Engine.Sound

/-!
Driving an engine: a host that lets time pass, goes on, changes the modes of playing and selects.
-/

namespace Playhead

/-- What a host does to play on. -/
inductive Input where
  | tick (delta : Nanoseconds)
  | goOn
  | cancel
  | skip (on : Bool)
  | auto (on : Bool)
  | resume
  | select (index : Nat)

namespace Input

/-- Ticks and continued input waits. -/
def IsPlain : Input → Prop
  | .tick _ | .goOn => True
  | _ => False

def IsSelect : Input → Prop
  | .select _ => True
  | _ => False

theorem IsPlain.not_isSelect {i : Input} (h : i.IsPlain) : ¬i.IsSelect := by
  cases i with
  | select index => exact absurd h id
  | _ => exact id

end Input

namespace Engine

def take (e : Engine) : Input → Engine
  | .tick delta => (e.tick delta).1
  | .goOn => e.continueInput
  | .cancel => e.cancelInput
  | .skip on => e.setSkip on
  | .auto on => e.setAutoPlay on
  | .resume => e.resume.1
  | .select index => (e.selectChoice index).1

def takeAll : Engine → List Input → Engine
  | e, [] => e
  | e, i :: rest => (e.take i).takeAll rest

def takeAfters (e : Engine) : Input → List ServiceSet
  | .tick delta => e.playback.tickAfters e.env delta
  | _ => []

/-- The services after each command that completes while an engine is driven. -/
def afters : Engine → List Input → List ServiceSet
  | _, [] => []
  | e, i :: rest => e.takeAfters i ++ (e.take i).afters rest

/-- The starts, presentations and ends that are reported while an engine is driven. -/
def plotOf (e : Engine) (l : List Input) : List Event :=
  (e.takeAll l).playback.plot.drop e.playback.plot.length

variable {e : Engine} {i : Input} {l : List Input}

theorem takeAll_append (e : Engine) (l m : List Input) :
    e.takeAll (l ++ m) = (e.takeAll l).takeAll m := by
  induction l generalizing e with
  | nil => rfl
  | cons i rest ih => exact ih (e.take i)

theorem afters_append (e : Engine) (l m : List Input) :
    e.afters (l ++ m) = e.afters l ++ (e.takeAll l).afters m := by
  induction l generalizing e with
  | nil => rfl
  | cons i rest ih =>
    show e.takeAfters i ++ (e.take i).afters (rest ++ m) = _
    rw [ih, ← List.append_assoc]
    rfl

theorem tick_alone (h : e.transients.runs = []) (delta : Nanoseconds) :
    (e.tick delta).1 = { e with playback := (e.playback.tick e.env delta).1 } := by
  have htick : ∀ c s, e.transients.tick e.registry c s delta e.config.player.maxCommands =
      (e.transients, s) := by
    intro c s
    unfold TransientRunner.tick TransientRunner.visitAll
    rw [h]
    unfold TransientRunner.visit
    rw [← h]
  have hreap : ∀ p : Playback, ({ e with playback := p } : Engine).reapCancelled =
      { e with playback := p } := fun p => reapCancelled_alone h
  unfold tick
  dsimp only
  rw [hreap]
  dsimp only
  rw [htick]

/-- Without transient scripts, nothing but main playback changes until a selection. -/
theorem take_alone (h : e.transients.runs = []) (hi : ¬i.IsSelect) :
    ∃ p, e.take i = { e with playback := p } := by
  cases i with
  | tick delta => exact ⟨_, tick_alone h delta⟩
  | select index => exact absurd trivial hi
  | _ => exact ⟨_, rfl⟩

theorem takeAll_alone (h : e.transients.runs = []) (hl : ∀ i ∈ l, ¬i.IsSelect) :
    ∃ p, e.takeAll l = { e with playback := p } := by
  induction l generalizing e with
  | nil => exact ⟨e.playback, rfl⟩
  | cons i rest ih =>
    obtain ⟨p, hp⟩ := take_alone h (hl i List.mem_cons_self)
    have hrest : (e.take i).transients.runs = [] := by rw [hp]; exact h
    obtain ⟨q, hq⟩ := ih hrest fun j hj => hl j (List.mem_cons_of_mem _ hj)
    refine ⟨q, ?_⟩
    show (e.take i).takeAll rest = _
    rw [hq, hp]

theorem take_stays (e : Engine) (hi : ¬i.IsSelect) (ht : ∀ delta, i ≠ .tick delta) :
    Playback.Stays e.playback (e.take i).playback ∧ e.takeAfters i = [] := by
  cases i with
  | tick delta => exact absurd rfl (ht delta)
  | select index => exact absurd trivial hi
  | goOn => exact ⟨.continueInput _, rfl⟩
  | cancel => exact ⟨(Playback.Stays.setSkip _ false).trans (.setAutoPlay _ false), rfl⟩
  | skip on => exact ⟨.setSkip _ on, rfl⟩
  | auto on => exact ⟨.setAutoPlay _ on, rfl⟩
  | resume => exact ⟨.resume _, rfl⟩

theorem take_grows (h : e.transients.runs = []) (hi : ¬i.IsSelect) :
    Playback.Grows e.playback (e.take i).playback := by
  by_cases ht : ∃ delta, i = .tick delta
  · obtain ⟨delta, rfl⟩ := ht
    show Playback.Grows e.playback (e.tick delta).1.playback
    rw [tick_alone h]
    exact .tick e.env e.playback delta
  · exact .of_eq (take_stays e hi fun delta hd => ht ⟨delta, hd⟩).1.plot

theorem takeAll_grows (h : e.transients.runs = []) (hl : ∀ i ∈ l, ¬i.IsSelect) :
    Playback.Grows e.playback (e.takeAll l).playback := by
  induction l generalizing e with
  | nil => exact .refl _
  | cons i rest ih =>
    have hi := hl i List.mem_cons_self
    obtain ⟨p, hp⟩ := take_alone h hi
    have hrest : (e.take i).transients.runs = [] := by rw [hp]; exact h
    exact (take_grows h hi).trans (ih hrest fun j hj => hl j (List.mem_cons_of_mem _ hj))

theorem take_reaches (he : e.Live) (hi : ¬i.IsSelect) :
    Playback.Reaches e.env e.playback (e.take i).playback (e.takeAfters i) False := by
  by_cases ht : ∃ delta, i = .tick delta
  · obtain ⟨delta, rfl⟩ := ht
    have h := Playback.tick_reaches he.main delta
    rw [show e.take (.tick delta) = _ from tick_alone he.alone delta]
    exact h
  · obtain ⟨hs, ha⟩ := take_stays e hi fun delta hd => ht ⟨delta, hd⟩
    rw [ha]
    exact ⟨⟨[], .of_stays hs⟩, he.main.stays hs, False.elim⟩

/-- Driving an engine goes from one standing to another. -/
theorem takeAll_reaches (he : e.Live) (hl : ∀ i ∈ l, ¬i.IsSelect) :
    Playback.Reaches e.env e.playback (e.takeAll l).playback (e.afters l) False := by
  induction l generalizing e with
  | nil => exact he.main.reaches
  | cons i rest ih =>
    have hi := hl i List.mem_cons_self
    have hrest : ∀ j ∈ rest, ¬j.IsSelect := fun j hj => hl j (List.mem_cons_of_mem _ hj)
    obtain ⟨p, hp⟩ := take_alone he.alone hi
    obtain ⟨⟨m, hm⟩, hlive, -⟩ := take_reaches he hi
    show Playback.Reaches e.env e.playback ((e.take i).takeAll rest).playback
      (e.takeAfters i ++ (e.take i).afters rest) False
    rw [hp] at hm hlive ⊢
    exact hm.reaches (ih (he.wanders hm hlive) hrest)

/-- Driving an engine goes along its standings until a command of the host is started. -/
theorem takeAll_tracked (he : e.Sound) (hl : ∀ i ∈ l, ¬i.IsSelect) :
    Playback.Tracked e.env e.playback (e.takeAll l).playback (e.afters l) False :=
  (takeAll_reaches he.toLive hl).tracked he.playback

/-- What is reported while driving goes along the standings. -/
theorem plotOf_eq {m : List Note} {g : List ServiceSet}
    (h : Playback.Follows e.env e.playback m (e.takeAll l).playback g) :
    e.plotOf l = m.filterMap Note.event? := by
  unfold plotOf
  rw [h.plot, List.drop_left]

/-- What follows a sound engine is sound. -/
theorem Sound.takeAll {m : List Note} {g : List ServiceSet} (he : e.Sound)
    (hl : ∀ i ∈ l, ¬i.IsSelect)
    (hm : Playback.Follows e.env e.playback m (e.takeAll l).playback g)
    (hs : (e.takeAll l).playback.Sound e.env) : (e.takeAll l).Sound := by
  obtain ⟨p, hp⟩ := takeAll_alone he.alone hl
  rw [hp] at hm hs ⊢
  exact ⟨he.wanders hm.toWanders hs.toLive, hs.builtin⟩

/-- Where only built-in commands were started, driving has gone along the standings. -/
theorem takeAll_follows (he : e.Sound) (hl : ∀ i ∈ l, ¬i.IsSelect)
    (hb : ∀ spot name, .commandExecuted spot name ∈ e.plotOf l → name ∈ Builtin.names) :
    ∃ m, Playback.Follows e.env e.playback m (e.takeAll l).playback (e.afters l) ∧
      (e.takeAll l).Sound := by
  rcases takeAll_tracked he hl with ⟨m, hm, hs, -⟩ | ⟨m, t, spot, name, -, hn, hplot, -⟩
  · exact ⟨m, hm, he.takeAll hl hm hs⟩
  · refine absurd (hb spot name ?_) hn
    obtain ⟨r, hr⟩ := hplot
    unfold plotOf
    rw [← hr, List.append_assoc, List.drop_left, List.filterMap_append]
    simp [Note.event?]

end Engine

end Playhead
