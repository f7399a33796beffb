import Playhead.Proofs.Services.Task

/-!
A command by itself, from its start to its end, with others writing to the services in between.

Main statement: a built-in command writes in the step that completes it and at no other time. Where
it does not start, faults, is still in flight or was dropped, the services are what the others made
of them.
-/

namespace Playhead

/-- How far a command got. -/
inductive Fate where
  /-- It did not start. -/
  | refused (f : Fault)
  | inFlight (rest : Task)
  | completed (c : Completion)
  | faulted (f : Fault)
  /-- It was dropped before it ended. -/
  | dropped

/-- What happens while a command is under way. -/
inductive Incident where
  /-- Others write to the services. -/
  | write (f : ServiceSet → ServiceSet)
  | step (ctx : Context)
  | drop

/-- What others make of the services. -/
def Incident.written : Incident → ServiceSet → ServiceSet
  | .write f => f
  | .step _ | .drop => id

namespace Fate

def ofProgress : Progress Task → Fate
  | .suspended rest _ => .inFlight rest
  | .completed c => .completed c
  | .faulted f => .faulted f

def isCompleted : Fate → Bool
  | .completed _ => true
  | _ => false

/-- Only a command in flight is stepped or dropped. -/
def after (fate : Fate) (s : ServiceSet) : Incident → Fate × ServiceSet
  | .write f => (fate, f s)
  | .step ctx =>
    match fate with
    | .inFlight t => (ofProgress (t.step ctx s).1, (t.step ctx s).2)
    | settled => (settled, s)
  | .drop =>
    match fate with
    | .inFlight t => (.dropped, t.cancel s)
    | settled => (settled, s)

/-- What becomes of a command that has got so far. -/
def live (fate : Fate) (s : ServiceSet) (l : List Incident) : Fate × ServiceSet :=
  l.foldl (fun x i => x.1.after x.2 i) (fate, s)

/-- A fate under which no command of the host is in flight. -/
def IsNative : Fate → Prop
  | .inFlight t => ¬t.IsHost
  | _ => True

end Fate

/-- Starts a command and sees what becomes of it. -/
def Handler.live (h : Handler) (c : Command) (s : ServiceSet) (l : List Incident) :
    Fate × ServiceSet :=
  match h.begin c with
  | .ok t => (Fate.inFlight t).live s l
  | .error f => (Fate.refused f).live s l

namespace Task

variable {t : Task}

/-- A step of a built-in task completes it or leaves the services as they are. -/
theorem completed_or_eq (ht : ¬t.IsHost) (ctx : Context) (s : ServiceSet) :
    (∃ c, (t.step ctx s).1 = .completed c) ∨ (t.step ctx s).2 = s := by
  have h := stepsTo_step ht ctx s
  generalize t.step ctx s = r at h ⊢
  cases h with
  | fault | suspend => exact .inr rfl
  | _ => exact .inl ⟨_, rfl⟩

end Task

namespace Fate

variable {fate : Fate}

/-- What has completed is over. -/
theorem isCompleted_after (h : fate.isCompleted = true) (s : ServiceSet) (i : Incident) :
    (fate.after s i).1.isCompleted = true := by
  cases fate with
  | completed c => cases i <;> rfl
  | _ => cases h

theorem isCompleted_live (h : fate.isCompleted = true) (s : ServiceSet) (l : List Incident) :
    (fate.live s l).1.isCompleted = true := by
  unfold live
  induction l generalizing fate s with
  | nil => exact h
  | cons i rest ih => exact ih (isCompleted_after h s i) _

/-- Unless an incident completes a command, the command takes no part in it. -/
theorem after_native (hn : fate.IsNative) (s : ServiceSet) (i : Incident)
    (h : (fate.after s i).1.isCompleted = false) :
    (fate.after s i).1.IsNative ∧ (fate.after s i).2 = i.written s := by
  cases i with
  | write f => exact ⟨hn, rfl⟩
  | drop =>
    cases fate with
    | inFlight t => exact ⟨trivial, Task.cancel_eq hn s⟩
    | _ => exact ⟨trivial, rfl⟩
  | step ctx =>
    cases fate with
    | inFlight t =>
      have hframe := Task.completed_or_eq hn ctx s
      have hrest := @Task.exists_wait_of_suspended t
      simp only [after] at h ⊢
      cases hstep : t.step ctx s with
      | mk progress s' =>
        rw [hstep] at h hframe
        cases progress with
        | completed c => cases h
        | faulted f =>
          obtain ⟨c, hc⟩ | heq := hframe
          · cases hc
          · exact ⟨trivial, heq⟩
        | suspended rest why =>
          obtain ⟨c, hc⟩ | heq := hframe
          · cases hc
          · obtain ⟨w, rfl⟩ := hrest hn hstep
            exact ⟨id, heq⟩
    | _ => exact ⟨trivial, rfl⟩

/-- As long as a command has not completed, all that was written was written by others. -/
theorem live_native (hn : fate.IsNative) (s : ServiceSet) (l : List Incident)
    (h : (fate.live s l).1.isCompleted = false) :
    (fate.live s l).2 = l.foldl (fun s i => i.written s) s := by
  induction l generalizing fate s with
  | nil => rfl
  | cons i rest ih =>
    have hopen : (fate.after s i).1.isCompleted = false := by
      refine Bool.eq_false_iff.2 fun hdone => ?_
      have hend := isCompleted_live hdone (fate.after s i).2 rest
      cases hend.symm.trans h
    obtain ⟨hnext, hwritten⟩ := after_native hn s i hopen
    calc (fate.live s (i :: rest)).2
      _ = ((fate.after s i).1.live (fate.after s i).2 rest).2 := rfl
      _ = rest.foldl (fun s i => i.written s) (fate.after s i).2 := ih hnext _ h
      _ = (i :: rest).foldl (fun s i => i.written s) s := by rw [hwritten, List.foldl_cons]

end Fate

namespace Builtin

/-- A built-in command that has not completed has written nothing, whatever was done to it. -/
theorem live_commits {h : Handler} (hm : h ∈ handlers) (c : Command) (s : ServiceSet)
    (l : List Incident) (hopen : (h.live c s l).1.isCompleted = false) :
    (h.live c s l).2 = l.foldl (fun s i => i.written s) s := by
  unfold Handler.live at hopen ⊢
  cases hb : h.begin c with
  | error f =>
    rw [hb] at hopen
    have hn : (Fate.refused f).IsNative := trivial
    exact Fate.live_native hn s l hopen
  | ok t =>
    rw [hb] at hopen
    have hn : (Fate.inFlight t).IsNative := (starts_of_begin hm hb).not_isHost
    exact Fate.live_native hn s l hopen

/-- A wait of one second. -/
def nap : Command :=
  ⟨"wait", .ofList [("time", .text "1")], ⟨1, 0⟩, .none⟩

/-- Half a second passes, someone prints a line, the scope is cancelled and the wait dropped. -/
def napDropped : List Incident :=
  [.step ⟨nap, ⟨"s", 0⟩, 500000000, false, false, false⟩,
    .write fun s => { s with textLog := s.textLog.map (·.push ⟨none, "meanwhile"⟩) },
    .step ⟨nap, ⟨"s", 0⟩, 600000000, false, false, true⟩, .drop]

theorem live_commits_nap : Builtin.wait ∈ handlers ∧
    ((Builtin.wait.live nap (.builtin ⟨default, default⟩) napDropped).1 matches .dropped) = true ∧
    (Builtin.wait.live nap (.builtin ⟨default, default⟩) napDropped).1.isCompleted = false ∧
    (Builtin.wait.live nap (.builtin ⟨default, default⟩) napDropped).2 =
      { ServiceSet.builtin ⟨default, default⟩ with
        textLog := some (TextLog.empty.push ⟨none, "meanwhile"⟩) } := by
  have hm : Builtin.wait ∈ handlers := List.mem_cons_of_mem _ List.mem_cons_self
  have hopen : (Builtin.wait.live nap (.builtin ⟨default, default⟩) napDropped).1.isCompleted =
      false := by decide +kernel
  refine ⟨hm, by decide +kernel, hopen, ?_⟩
  exact live_commits hm nap (.builtin ⟨default, default⟩) napDropped hopen

end Builtin

end Playhead
