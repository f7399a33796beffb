import Playhead.Playback.Transient
import Playhead.Proofs.Standing.Enclosed
import Playhead.Proofs.Standing.Progress

/-!
Where a transient script stands, and how its turns follow the standings of main playback.
-/

namespace Playhead

/-- Only a call looks at whether it runs beside the main script. -/
theorem Task.step_transient {t : Task} (ht : ¬t.IsHost) (hcall : ∀ target, t ≠ .jump target true)
    (ctx : Context) (beside : Bool) (s : ServiceSet) :
    t.step { ctx with transient := beside } s = t.step ctx s := by
  cases t with
  | host t => exact absurd trivial ht
  | jump target returning =>
    cases returning with
    | false => rfl
    | true => exact absurd rfl (hcall target)
  | _ => rfl

namespace Standing

/-- The same commands were started, and each that completed has left the same story. -/
structure Alike (l k : List Note) : Prop where
  executed : executed k = executed l
  after : (k.filterMap Note.after?).map ServiceSet.story = l.filterMap Note.after?

variable {l l' k m : List Note}

theorem Alike.nil : Alike [] [] :=
  ⟨rfl, rfl⟩

theorem Alike.append (h : Alike l k) (h' : Alike l' m) :
    Alike (l ++ l') (k ++ m) := by
  constructor
  · rw [executed_append, executed_append, h.executed, h'.executed]
  · rw [List.filterMap_append, List.filterMap_append, List.map_append, h.after, h'.after]

theorem alike_pass (t : Standing) (d : Document) (i : Nat) : Alike (t.pass d i).1 [] := by
  refine ⟨(executed_pass t d i).symm, ?_⟩
  unfold pass
  dsimp only
  split <;> rfl

theorem alike_start (t : Standing) (d : Document) (i : Nat) (c : Command) :
    Alike (t.start d i c).1 [.event (.commandExecuted ⟨d.name, i⟩ c.name)] :=
  ⟨rfl, rfl⟩

theorem alike_complete (w : Shelf) (t : Standing) (d : Document) (i : Nat) (c : Command)
    (h : Handler) {s : ServiceSet} (hs : (t.complete w d i c h).2.services = s.story) :
    Alike (t.complete w d i c h).1 [.after s] := by
  refine ⟨(executed_finish w t d i _ _).symm, ?_⟩
  rw [Playback.afters_complete, hs]
  rfl

/-- A command in flight where a standing is busy. -/
structure Flight (w : Shelf) (d : Document) (t : Standing) (i : Nat) (c : Command) (h : Handler)
    (task : Task) : Prop where
  index : t.index = some i
  busy : t.busy = true
  command : d.command? i = some c
  handler : w.registry.get? c.name = some h
  begun : ∃ started, h.begin c = .ok started ∧ started.Underway task

theorem Flight.next {w : Shelf} {d : Document} {t : Standing} {i : Nat} {c : Command}
    {h : Handler} {task : Task} (hf : Flight w d t i c h task) (hd : t.document = some d) :
    t.next w = some (t.complete w d i c h) :=
  next_complete hd hf.index hf.command hf.busy hf.handler

end Standing

namespace TransientRun

/-- A step that was the last one of its command notes the services after it. -/
def steppedNotes (r : TransientRun × Scene × Progress) : List Note :=
  match r.2.2 with
  | .suspended => []
  | _ => [.after r.2.1.services]

/-- The commands that a run starts and the services after each one that completes, as main playback
would note them. -/
def runNotes (registry : Registry) : Nat → Nanoseconds → TransientRun → Scene → List Note
  | 0, _, _, _ => []
  | n + 1, delta, r, s =>
    match r.document.command? r.index with
    | none => []
    | some c =>
      let arrived := r.arrivedByBranch
      let r := { r with arrivedByBranch := false }
      match r.document.entry r.index arrived s.services with
      | .skip next => runNotes registry n delta { r with index := next } s
      | .run =>
        match registry.get? c.name with
        | none =>
          runNotes registry n delta { r with index := r.index + 1 }
            (r.report s r.index ("unknown command `" ++ c.name ++ "`"))
        | some h =>
          .event (.commandExecuted ⟨r.document.name, r.index⟩ c.name) ::
            match h.begin c with
            | .error f =>
              let s := r.report s r.index f.message
              .after s.services ::
                match r.complete r.index (.ofFault c.role) with
                | (_, some _) => []
                | (r, none) => runNotes registry n delta r s
            | .ok task =>
              let x := r.step s r.index task delta
              steppedNotes x ++
                match x with
                | (r, s, .running) => runNotes registry n 0 r s
                | _ => []

/-- What is noted of a turn. -/
def advanceNotes (registry : Registry) (cancelled : Bool) (r : TransientRun) (s : Scene)
    (delta : Nanoseconds) (budget : Nat) : List Note :=
  if cancelled then []
  else
    match r.active with
    | none => runNotes registry budget delta r s
    | some (index, task) =>
      let x := r.step s index task delta
      steppedNotes x ++
        match x with
        | (r, s, .running) => runNotes registry budget 0 r s
        | _ => []

/-- A run whose command in flight is dropped. -/
def dropped (r : TransientRun) : TransientRun :=
  { r with active := none }

/-- The time that the command in flight still waits. -/
def left (r : TransientRun) : Nanoseconds :=
  (r.active.map fun a => a.2.left).getD 0

open Standing (Alike Flight)

/-- A run of a script stands where the main script would stand. -/
structure Stands (r : TransientRun) (w : Shelf) (d : Document) (s : ServiceSet) (t : Standing) :
    Prop where
  script : r.document = d
  document : t.document = some d
  index : t.index = if r.index < d.size then some r.index else none
  arrived : t.arrived = r.arrivedByBranch
  services : t.services = s.story
  busy : t.busy = r.active.isSome
  flight : ∀ i task, r.active = some (i, task) → ∃ c h, Flight w d t i c h task

/-- A turn has left a run at a standing, or it has ended the run where the story is over. -/
inductive Rests (w : Shelf) (d : Document) (t : Standing) :
    TransientRun × Scene × Option TransientStatus → Prop where
  | going {r : TransientRun} {s : Scene} (hr : r.Stands w d s.services t) : Rests w d t (r, s, none)
  | ended (r : TransientRun) {s : Scene} (status : TransientStatus) (hi : t.index = none)
      (hs : t.services = s.services.story) : Rests w d t (r, s, some status)

/-- A run has gone from a standing to where it rests. -/
def Goes (w : Shelf) (d : Document) (t : Standing)
    (x : TransientRun × Scene × Option TransientStatus) (k : List Note) : Prop :=
  ∃ l u, t.Leads w l u ∧ Alike l k ∧ Rests w d u x

/-- All that a turn can be: it ends a run that is over, takes a step at least, or uses up time of
the wait in flight. -/
inductive Turn (w : Shelf) (d : Document) (t : Standing) (left : Nanoseconds) :
    TransientRun × Scene × Option TransientStatus → List Note → Prop where
  | ended (r : TransientRun) {s : Scene} (status : TransientStatus) (hi : t.index = none)
      (hs : t.services = s.services.story) : Turn w d t left (r, s, some status) []
  | goes {x : TransientRun × Scene × Option TransientStatus} {l k m : List Note}
      {u : Standing} (hnext : t.next w = some (l, u)) (halike : Alike l k)
      (hgoes : Goes w d u x m) : Turn w d t left x (k ++ m)
  | waits {r : TransientRun} {s : Scene} (hr : r.Stands w d s.services t) (hpos : 0 < r.left)
      (hle : r.left ≤ left) : Turn w d t left (r, s, none) []

variable {w : Shelf} {d : Document} {t u : Standing} {r : TransientRun} {s : Scene}
  {x : TransientRun × Scene × Option TransientStatus} {l k m : List Note}
  {delta : Nanoseconds}

theorem Rests.stays (h : Rests w d t x) : Goes w d t x [] :=
  ⟨[], t, .refl t, .nil, h⟩

theorem Goes.after (hnext : t.next w = some (l, u)) (halike : Alike l k)
    (h : Goes w d u x m) : Goes w d t x (k ++ m) := by
  obtain ⟨m, v, hm, halike', hx⟩ := h
  exact ⟨l ++ m, v, .step hnext hm, halike.append halike', hx⟩

theorem Turn.along {left : Nanoseconds} (h : Turn w d t left x k) : Goes w d t x k := by
  cases h with
  | ended r status hi hs => exact (Rests.ended r status hi hs).stays
  | goes hnext halike hgoes => exact hgoes.after hnext halike
  | waits hr hpos hle => exact (Rests.going hr).stays

theorem left_idle (h : r.active = none) : r.left = 0 := by
  unfold left
  rw [h]
  rfl

theorem Stands.idle (hr : r.Stands w d s.services t) (ht : t.busy = false) : r.active = none :=
  Option.isNone_iff_eq_none.1 (Option.isSome_eq_false_iff.1 (hr.busy.symm.trans ht))

/-- A label of the script itself is found in the same way beside the main script. -/
theorem localJump_eq (hr : r.document = d) {target : JumpTarget} (ht : target.Local d.name) :
    (∃ i, r.localJump target = .ok i ∧ w.resolve d target = .ok (d, i)) ∨
      ∃ message e, r.localJump target = .error message ∧ w.resolve d target = .error e := by
  obtain ⟨script, _ | label⟩ | spot := target
  · exact ht.elim
  · subst hr
    have hown : w.document r.document (script.getD r.document.name) = .ok r.document := by
      rcases ht with rfl | rfl <;> exact if_pos rfl
    have hlocal : (decide (script = none) || decide (script = some r.document.name)) = true := by
      rcases ht with h | h <;> simp [h]
    unfold localJump Shelf.resolve
    dsimp only
    rw [if_pos hlocal, hown]
    dsimp only
    cases r.document.labelIndex? label with
    | some i => exact .inl ⟨i, rfl, rfl⟩
    | none => exact .inr ⟨_, _, rfl, rfl⟩
  · exact ht.elim

/-- Moving past a command leads to where main playback goes on after it. -/
theorem complete_rests (hr : r.document = d) (ha : r.active = none)
    (harrived : t.arrived = r.arrivedByBranch) (hd : t.document = some d) {done : Completion}
    (hf : done.flow.Stays d.name) (i : Nat) :
    Rests w d (t.finish w d i done s.services.story).2
      ((r.complete i done).1, s, (r.complete i done).2) := by
  have hbusy : r.active.isSome = false := by rw [ha]; rfl
  have hidle : ∀ {v : Standing} {j : Nat} {task : Task}, r.active = some (j, task) →
      ∃ c h, Flight w d v j c h task := fun h => by rw [ha] at h; cases h
  subst hr
  unfold complete Standing.finish Shelf.follow Standing.arrives
  cases hflow : done.flow with
  | advance =>
    exact .going ⟨rfl, rfl, rfl, harrived, rfl, hbusy.symm, fun _ _ h => hidle h⟩
  | branch taken =>
    exact .going ⟨rfl, rfl, rfl, rfl, rfl, hbusy.symm, fun _ _ h => hidle h⟩
  | stop =>
    rw [hflow] at hf
    exact hf.elim
  | jump target =>
    rw [hflow] at hf
    dsimp only
    rcases localJump_eq (w := w) rfl hf with ⟨j, hj, hj'⟩ | ⟨message, e, he, he'⟩
    · rw [hj, hj']
      exact .going ⟨rfl, rfl, rfl, harrived, rfl, hbusy.symm, fun _ _ h => hidle h⟩
    · rw [he, he']
      exact .ended _ _ rfl rfl

section

variable {i : Nat} {c : Command} {h : Handler} {task : Task}

theorem step_eq (hc : r.document.command? i = some c) (s : Scene) (task : Task)
    (delta : Nanoseconds) :
    r.step s i task delta =
      match task.step ⟨c, ⟨r.document.name, i⟩, delta, false, true, false⟩ s.services with
      | (.suspended rest _, after) =>
        ({ r with active := some (i, rest) }, { s with services := after }, .suspended)
      | (.completed done, after) =>
        ((r.dropped.complete i done).1, { s with services := after },
          .ofComplete (r.dropped.complete i done).2)
      | (.faulted f, after) =>
        ((r.dropped.complete i (.ofFault c.role)).1,
          r.report { s with services := after } i f.message,
          .ofComplete (r.dropped.complete i (.ofFault c.role)).2) := by
  unfold step
  rw [hc]
  rfl

/-- A command in flight beside the main script goes on without touching the services, or it ends as
its kind of command does. -/
theorem flight_steps (hd : d.Enclosed) (hw : w.Sound) (hf : Flight w d t i c h task)
    (delta : Nanoseconds) (s : ServiceSet) :
    let x := task.step ⟨c, ⟨d.name, i⟩, delta, false, true, false⟩ s
    (∃ rest why, x = (.suspended rest why, s) ∧ Flight w d t i c h rest ∧ 0 < rest.left ∧
        rest.left ≤ task.left - delta) ∨
      Task.IsLast x.1 ∧
        h.outcome c ⟨d.name, i⟩ s = (Builtin.completionOf c.role x.1, x.2) := by
  intro x
  obtain ⟨started, hbegin, hunder⟩ := hf.begun
  have hname := hd.name hf.command
  have hbuiltin := (Builtin.steady_of_shared hname).1
  have hstarts := Builtin.starts_of_begin (hw.mem_handlers hbuiltin hf.handler) hbegin
  have hnot : ¬task.IsHost := by
    rcases hunder with rfl | ⟨v, wait, -, rfl, -⟩
    · exact hstarts.not_isHost
    · exact id
  have hcall : ∀ target, started ≠ .jump target true := by
    rintro target rfl
    cases hstarts
    rw [← hw.name_eq hbuiltin hf.handler] at hname
    exact absurd hname (by decide)
  rcases Task.step_underway hstarts.not_isHost hunder ⟨c, ⟨d.name, i⟩, delta, false, true, false⟩
      rfl s with ⟨rest, why, hrest, hunder'⟩ | ⟨hended, hsame⟩
  · exact .inl ⟨rest, why, hrest,
      ⟨hf.index, hf.busy, hf.command, hf.handler, started, hbegin, hunder'⟩,
      Task.left_of_suspended hnot rfl hrest⟩
  · have hbeside := Task.step_transient hstarts.not_isHost hcall
      ⟨c, ⟨d.name, i⟩, 0, true, false, false⟩ true s
    exact .inr ⟨hended, Builtin.outcome_of_last hbegin hended (hsame.trans hbeside)⟩

/-- A command that ends beside the main script leads to where main playback goes on after it. -/
theorem flight_rests (hd : d.Enclosed) (hw : w.Sound)
    (hr : TransientRun.Stands { r with active := some (i, task) } w d s.services t)
    (hf : Flight w d t i c h task) {done : Completion} {a : Scene}
    (hdone : h.outcome c ⟨d.name, i⟩ s.services = (done, a.services)) :
    Rests w d (t.complete w d i c h).2
        ((r.dropped.complete i done).1, a, (r.dropped.complete i done).2) ∧
      (t.complete w d i c h).2.services = a.services.story := by
  have hbuiltin := (Builtin.steady_of_shared (hd.name hf.command)).1
  have houtcome := Builtin.outcome_story (hw.mem_handlers hbuiltin hf.handler) c ⟨d.name, i⟩
    s.services
  have hstays := hd.outcome_stays hw hf.command hf.handler ⟨d.name, i⟩ t.services
  rw [hdone, ← hr.services] at houtcome
  unfold Standing.complete
  rw [houtcome] at hstays ⊢
  exact ⟨complete_rests (r := r.dropped) hr.script rfl hr.arrived hr.document hstays i,
    Standing.services_finish _ _ _ _ _ _⟩

/-- Stepping a command in flight uses up time of a wait, or the command completes as it does in
main playback. -/
theorem step_rests (hd : d.Enclosed) (hw : w.Sound)
    (hr : TransientRun.Stands { r with active := some (i, task) } w d s.services t)
    (hf : Flight w d t i c h task) (delta : Nanoseconds) :
    (∃ rest, r.step s i task delta = ({ r with active := some (i, rest) }, s, .suspended) ∧
        Flight w d t i c h rest ∧ 0 < rest.left ∧ rest.left ≤ task.left - delta) ∨
      ∃ x : TransientRun × Scene × Option TransientStatus,
        r.step s i task delta = (x.1, x.2.1, .ofComplete x.2.2) ∧
          Rests w d (t.complete w d i c h).2 x ∧
          (t.complete w d i c h).2.services = x.2.1.services.story := by
  have hscript : r.document = d := hr.script
  have hsteps := flight_steps hd hw hf delta s.services
  rw [step_eq (hscript ▸ hf.command), hscript]
  cases hx : task.step ⟨c, ⟨d.name, i⟩, delta, false, true, false⟩ s.services with
  | mk progress after =>
    rw [hx] at hsteps
    rcases hsteps with ⟨rest, why, hrest, hf', hleft⟩ | ⟨hended, houtcome⟩
    · obtain ⟨rfl, rfl⟩ := Prod.mk.inj hrest
      exact .inl ⟨rest, rfl, hf', hleft⟩
    · right
      cases progress with
      | suspended rest why => exact hended.elim
      | completed done =>
        exact ⟨_, rfl, flight_rests (a := { s with services := after }) hd hw hr hf houtcome⟩
      | faulted f =>
        exact ⟨_, rfl, flight_rests (a := r.report { s with services := after } i f.message)
          hd hw hr hf houtcome⟩

end

/-- What a run comes to within so many commands, from wherever no command is in flight. -/
def RunsWithin (w : Shelf) (d : Document) (n : Nat) : Prop :=
  ∀ delta r s t, TransientRun.Stands r w d s.services t → r.active = none →
    Goes w d t (run w.registry n delta r s) (runNotes w.registry n delta r s)

section

variable {i n : Nat}

/-- A run goes on after a command that has not ended it. -/
theorem Rests.runs (hx : Rests w d t (r, s, none)) (ht : t.busy = false) (hn : RunsWithin w d n)
    (delta : Nanoseconds) :
    Goes w d t (run w.registry n delta r s) (runNotes w.registry n delta r s) := by
  cases hx with
  | going hr => exact hn delta r s t hr (hr.idle ht)

/-- Stepping the command in flight, and running on if it completes. -/
theorem step_turn {task : Task} (hd : d.Enclosed) (hw : w.Sound) (hn : RunsWithin w d n)
    (hr : TransientRun.Stands { r with active := some (i, task) } w d s.services t)
    (delta : Nanoseconds) :
    Turn w d t (task.left - delta)
      (match r.step s i task delta with
        | (r, s, .suspended) => (r, s, none)
        | (r, s, .ended status) => (r, s, some status)
        | (r, s, .running) => run w.registry n 0 r s)
      (steppedNotes (r.step s i task delta) ++
        match r.step s i task delta with
        | (r, s, .running) => runNotes w.registry n 0 r s
        | _ => []) := by
  obtain ⟨c, h, hf⟩ := hr.flight i task rfl
  rcases step_rests hd hw hr hf delta with ⟨rest, hrest, hf', hpos, hle⟩ | ⟨x, hx, hrests, hs⟩
  · rw [hrest]
    refine .waits ⟨hr.script, hr.document, hr.index, hr.arrived, hr.services, hr.busy, ?_⟩ hpos hle
    intro j task' hj
    cases hj
    exact ⟨c, h, hf'⟩
  · have hidle : (t.complete w d i c h).2.busy = false := Standing.busy_finish _ _ _ _ _ _
    have halike := Standing.alike_complete w t d i c h hs
    rw [hx]
    obtain ⟨r', s', _ | status⟩ := x
    · exact .goes (k := [.after s'.services]) (hf.next hr.document) halike
        (hrests.runs hidle hn 0)
    · exact .goes (k := [.after s'.services]) (hf.next hr.document) halike hrests.stays

/-- A command that faults at its start is passed as in main playback. -/
theorem fault_goes {c : Command} {h : Handler} {f : Fault} (hn : RunsWithin w r.document n)
    (hr : r.Stands w r.document s.services t) (ha : r.active = none) (hi : t.index = some r.index)
    (hc : r.document.command? r.index = some c) (hget : w.registry.get? c.name = some h)
    (hbegin : h.begin c = .error f) (delta : Nanoseconds) :
    Goes w r.document (t.start r.document r.index c).2
      (match ({ r with arrivedByBranch := false } : TransientRun).complete r.index
          (.ofFault c.role) with
        | (r', some status) => (r', r.report s r.index f.message, some status)
        | (r', none) => run w.registry n delta r' (r.report s r.index f.message))
      (.after s.services ::
        match ({ r with arrivedByBranch := false } : TransientRun).complete r.index
            (.ofFault c.role) with
        | (_, some _) => []
        | (r', none) => runNotes w.registry n delta r' (r.report s r.index f.message)) := by
  obtain ⟨u, hu⟩ : ∃ u, u = (t.start r.document r.index c).2 := ⟨_, rfl⟩
  have hdoc : u.document = some r.document := by rw [hu]; exact hr.document
  have hnext : u.next w = some (u.complete w r.document r.index c h) := by
    rw [hu]
    exact Standing.next_complete hr.document hi hc rfl hget
  have hfault : u.complete w r.document r.index c h =
      u.finish w r.document r.index (.ofFault c.role) s.services.story := by
    unfold Standing.complete Handler.outcome
    rw [hbegin, hu]
    exact congrArg (Standing.finish w _ _ _ _) hr.services
  have halike : Alike (u.complete w r.document r.index c h).1 [.after s.services] :=
    Standing.alike_complete w u r.document r.index c h
      (hfault ▸ Standing.services_finish _ _ _ _ _ _)
  have hrests : Rests w r.document
      (u.finish w r.document r.index (.ofFault c.role) s.services.story).2 _ :=
    complete_rests (r := { r with arrivedByBranch := false }) (s := r.report s r.index f.message)
      rfl ha (hu ▸ rfl) hdoc (stays_ofFault c.role r.document.name) r.index
  rw [hfault] at hnext halike
  rw [← hu]
  cases hx : ({ r with arrivedByBranch := false } : TransientRun).complete r.index
    (.ofFault c.role) with
  | mk r' ended =>
    rw [hx] at hrests
    cases ended with
    | none => exact (hrests.runs (Standing.busy_finish _ _ _ _ _ _) hn delta).after hnext halike
    | some status => exact hrests.stays.after hnext halike

/-- A turn with nothing in flight comes to one command at least, unless the run is over. -/
theorem run_turn (hd : d.Enclosed) (hw : w.Sound) (hstaged : d.Staged w.registry)
    (hn : RunsWithin w d n) (hr : r.Stands w d s.services t) (ha : r.active = none)
    (delta left : Nanoseconds) :
    Turn w d t left (run w.registry (n + 1) delta r s) (runNotes w.registry (n + 1) delta r s) := by
  have hbusy : t.busy = false := by rw [hr.busy, ha]; rfl
  obtain rfl := hr.script
  unfold run runNotes
  cases hc : r.document.command? r.index with
  | none =>
    have hi : t.index = none :=
      hr.index.trans (if_neg (Nat.not_lt.2 (Array.getElem?_eq_none_iff.1 hc)))
    exact .ended r .completed hi hr.services
  | some c =>
    obtain ⟨hlt, -⟩ := Array.getElem?_eq_some_iff.1 hc
    have hi : t.index = some r.index := hr.index.trans (if_pos hlt)
    obtain ⟨h, hget, -, hrole⟩ := hstaged.handler hc
    have hentry : r.document.entry r.index t.arrived t.services =
        r.document.entry r.index r.arrivedByBranch s.services := by
      rw [hr.arrived, hr.services]
      rfl
    dsimp only
    cases he : r.document.entry r.index r.arrivedByBranch s.services with
    | skip next =>
      have hstands : TransientRun.Stands { r with arrivedByBranch := false, index := next } w
          r.document s.services (t.pass r.document next).2 :=
        ⟨rfl, rfl, rfl, rfl, hr.services, hr.busy, fun j task h => by rw [ha] at h; cases h⟩
      exact .goes (k := []) (Standing.next_pass hr.document hi hc hbusy (hentry.trans he))
        (Standing.alike_pass t r.document next) (hn delta _ s _ hstands ha)
    | run =>
      rw [hget]
      dsimp only
      have hnext := Standing.next_start hr.document hi hc hbusy (hentry.trans he) hget
      refine .goes (k := [_]) hnext (Standing.alike_start t r.document r.index c) ?_
      cases hbegin : h.begin c with
      | error f => exact fault_goes hn hr ha hi hc hget hbegin delta
      | ok task =>
        have hflight : Flight w r.document (t.start r.document r.index c).2 r.index c h task :=
          ⟨hi, rfl, hc, hget, task, hbegin, .inl rfl⟩
        have hstands : TransientRun.Stands
            { r with arrivedByBranch := false, active := some (r.index, task) } w r.document
            s.services (t.start r.document r.index c).2 := by
          refine ⟨rfl, hr.document, hr.index, rfl, hr.services, rfl, fun j task' hj => ?_⟩
          cases hj
          exact ⟨c, h, hflight⟩
        exact (step_turn (r := { r with arrivedByBranch := false }) hd hw hn hstands delta).along

theorem runsWithin (hd : d.Enclosed) (hw : w.Sound) (hstaged : d.Staged w.registry) (n : Nat) :
    RunsWithin w d n := by
  induction n with
  | zero => exact fun delta r s t hr ha => (Rests.going hr).stays
  | succ n ih => exact fun delta r s t hr ha => (run_turn hd hw hstaged ih hr ha delta 0).along

/-- A turn of a run that is not cancelled follows the standings of main playback. -/
theorem advance_turn (hd : d.Enclosed) (hw : w.Sound) (hstaged : d.Staged w.registry)
    (hr : r.Stands w d s.services t) (hn : 0 < n) (delta : Nanoseconds) :
    Turn w d t (r.left - delta) (r.advance w.registry false s delta n)
      (r.advanceNotes w.registry false s delta n) := by
  unfold advance advanceNotes
  simp only [Bool.false_eq_true, if_false]
  cases ha : r.active with
  | none =>
    obtain ⟨m, rfl⟩ := Nat.exists_eq_add_one.2 hn
    exact run_turn hd hw hstaged (runsWithin hd hw hstaged m) hr ha delta _
  | some a =>
    obtain ⟨i, task⟩ := a
    have hleft : r.left = task.left := by
      unfold left
      rw [ha]
      rfl
    rw [hleft]
    refine step_turn hd hw (runsWithin hd hw hstaged n) ?_ delta
    rw [← ha]
    exact hr

end

end TransientRun

end Playhead
