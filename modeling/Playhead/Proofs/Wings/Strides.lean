import Playhead.Proofs.Services.Engine
import Playhead.Proofs.Wings.Run

/-!
How much a transient script does in one turn, and the turns that a tick gives to the runs.
-/

namespace Playhead

/-- Whether an event is one that transient scripts bring about. -/
def Event.isWing : Event → Bool
  | .fault _ _ | .transientFinished _ _ => true
  | _ => false

namespace TransientRun

/-- How a turn ends: what is left of the run, and how the run ended, if it did. -/
abbrev Outcome :=
  TransientRun × Scene × Option TransientStatus

/-- What a run does between two commands it comes to: it goes on, with some time left, or its turn
is over. -/
abbrev Leg :=
  (Nanoseconds × TransientRun × Scene) ⊕ Outcome

/-- A run goes on after a step, unless the step ends its turn. -/
def legOf : TransientRun × Scene × Progress → Leg
  | (r, s, .suspended) => .inr (r, s, none)
  | (r, s, .ended status) => .inr (r, s, some status)
  | (r, s, .running) => .inl (0, r, s)

/-- Begins the command of a handler and steps it. -/
def beginLeg (delta : Nanoseconds) (r : TransientRun) (s : Scene) (c : Command) (h : Handler) :
    Leg :=
  match h.begin c with
  | .ok task => legOf (r.step s r.index task delta)
  | .error f =>
    let s := r.report s r.index f.message
    match r.complete r.index (.ofFault c.role) with
    | (r, some status) => .inr (r, s, some status)
    | (r, none) => .inl (delta, r, s)

/-- What a run does at the command it has come to, and where it begins one. -/
def stride (registry : Registry) (delta : Nanoseconds) (r : TransientRun) (s : Scene) :
    Option Nat × Leg :=
  match r.document.command? r.index with
  | none => (none, .inr (r, s, some .completed))
  | some c =>
    let onward := { r with arrivedByBranch := false }
    match r.document.entry r.index r.arrivedByBranch s.services with
    | .skip next => (none, .inl (delta, { onward with index := next }, s))
    | .run =>
      match registry.get? c.name with
      | none => (none, .inl (delta, { onward with index := r.index + 1 },
          onward.report s r.index ("unknown command `" ++ c.name ++ "`")))
      | some h => (some r.index, beginLeg delta onward s c h)

/-- Where a run begins commands while it comes to so many. -/
def begun (registry : Registry) : Nat → Nanoseconds → TransientRun → Scene → List Nat
  | 0, _, _, _ => []
  | n + 1, delta, r, s =>
    let (i, leg) := r.stride registry delta s
    i.toList ++ leg.elim (fun x => begun registry n x.1 x.2.1 x.2.2) fun _ => []

variable {registry : Registry} {r : TransientRun} {s : Scene}

/-- A run takes stride after stride. -/
theorem run_succ (registry : Registry) (n : Nat) (delta : Nanoseconds) (r : TransientRun)
    (s : Scene) : run registry (n + 1) delta r s =
      (r.stride registry delta s).2.elim (fun x => run registry n x.1 x.2.1 x.2.2) id := by
  rw [run]
  unfold stride
  cases r.document.command? r.index with
  | none => rfl
  | some c =>
    dsimp only
    cases r.document.entry r.index r.arrivedByBranch s.services with
    | skip next => rfl
    | run =>
      dsimp only
      cases registry.get? c.name with
      | none => rfl
      | some h =>
        dsimp only
        unfold beginLeg
        cases h.begin c with
        | ok task =>
          dsimp only
          generalize TransientRun.step _ s r.index task delta = x
          obtain ⟨r, s, _ | _ | status⟩ := x <;> rfl
        | error f =>
          dsimp only
          generalize TransientRun.complete _ r.index _ = x
          obtain ⟨u, _ | status⟩ := x <;> rfl

theorem advance_eq (registry : Registry) (r : TransientRun) (s : Scene) (delta : Nanoseconds)
    (budget : Nat) : r.advance registry false s delta budget =
      match r.active with
      | none => run registry budget delta r s
      | some (i, task) => (legOf (r.step s i task delta)).elim
          (fun x => run registry budget x.1 x.2.1 x.2.2) id := by
  unfold advance
  rw [if_neg Bool.false_ne_true]
  cases r.active with
  | none => rfl
  | some a =>
    dsimp only
    generalize r.step s a.1 a.2 delta = x
    obtain ⟨r, s, _ | _ | status⟩ := x <;> rfl

end TransientRun

namespace TransientRunner

/-- The turns that runs take one after the other, each with the scene it finds. -/
def turns (turn : TransientRun → Scene → TransientRun.Outcome) :
    List TransientRun → Scene → List (TransientRun × Scene)
  | [], _ => []
  | r :: rest, s =>
    (r, s) :: match turn r s with
      | (_, s, none) => turns turn rest s
      | (r, s, some status) => turns turn rest (s.emit (.transientFinished r.handle status))

/-- Visiting runs leaves what their turns leave, in the order of the runs. -/
theorem visit_eq_turns (turn : TransientRun → Scene → TransientRun.Outcome)
    (runs : List TransientRun) (t : TransientRunner) (s : Scene) :
    (visit turn runs t s).1.runs = t.runs ++ (turns turn runs s).filterMap fun x =>
      match turn x.1 x.2 with
      | (r, _, none) => some r
      | (_, _, some _) => none := by
  induction runs generalizing t s with
  | nil => exact (List.append_nil _).symm
  | cons r rest ih =>
    unfold visit turns
    rw [List.filterMap_cons]
    dsimp only
    generalize turn r s = x
    obtain ⟨u, s', _ | status⟩ := x
    · dsimp only
      rw [ih, List.append_assoc]
      rfl
    · exact ih _ _

/-- All that runs tell are faults and their ends. -/
theorem visitAll_told {turn : TransientRun → Scene → TransientRun.Outcome}
    (hturn : ∀ {Q : Scene → Prop},
      (∀ s services, Q s → Q { s with services := services }) →
      (∀ s spot message, Q s → Q (s.emit (.fault spot message))) →
      ∀ r s, Q s → Q (turn r s).2.1) (t : TransientRunner) (s : Scene) :
    ∃ l, (t.visitAll turn s).2.events = s.events ++ l ∧ ∀ event ∈ l, event.isWing = true := by
  obtain ⟨Q, hQ⟩ : ∃ Q : Scene → Prop, Q = fun s' => ∃ l, s'.events = s.events ++ l ∧
    ∀ event ∈ l, event.isWing = true := ⟨_, rfl⟩
  have hemit : ∀ (s' : Scene) (event : Event), event.isWing = true → Q s' → Q (s'.emit event) := by
    rw [hQ]
    rintro s' event hwing ⟨l, hl, hall⟩
    refine ⟨l ++ [event], ?_, fun other hother => ?_⟩
    · rw [Scene.events_emit, hl, List.append_assoc]
    · rcases List.mem_append.1 hother with hold | hnew
      · exact hall other hold
      · rw [List.mem_singleton.1 hnew]
        exact hwing
  have hend := (visitAll_keeps (K := fun _ => True) (P := Q) (t := t) (s := s)
    (fun r s' _ hs => ⟨trivial, hturn (fun s' services hs => by rw [hQ] at hs ⊢; exact hs)
      (fun s' spot message => hemit s' _ rfl) r s' hs⟩)
    (fun s' h status => hemit s' _ rfl) (fun _ _ => trivial)
    (by rw [hQ]; exact ⟨[], (List.append_nil _).symm, fun _ h => nomatch h⟩)).2
  rw [hQ] at hend
  exact hend

theorem reapCancelled_told (t : TransientRunner) (c : Cancellations) (s : Scene) :
    ∃ l, (t.reapCancelled c s).2.events = s.events ++ l ∧ ∀ event ∈ l, event.isWing = true := by
  refine visitAll_told (fun hwrite _ r s hs => ?_) t s
  split
  · exact hwrite s _ hs
  · exact hs

theorem tick_told (t : TransientRunner) (registry : Registry) (c : Cancellations) (s : Scene)
    (delta : Nanoseconds) (budget : Nat) :
    ∃ l, (t.tick registry c s delta budget).2.events = s.events ++ l ∧
      ∀ event ∈ l, event.isWing = true :=
  visitAll_told (fun hwrite hfault r _ hs =>
    (TransientRun.kept_scene hwrite hfault).advance (r := r) hs _ delta budget) t s

end TransientRunner

end Playhead
