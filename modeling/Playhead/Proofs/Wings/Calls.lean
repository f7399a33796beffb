import Mathlib.Data.List.Sort
import Playhead.Proofs.Wings.Runner

/-!
A runner of transient scripts through all calls of its host: which handles it gave out and what it
told.

There is one account of what a call can do, `Course.call_cases`. All calls but three visit the runs,
so what holds along a course is shown for these three and, by `visitAll_induction`, for one turn.

A tally counts the runs of a runner: those that are in progress and those that were told to have
ended add up to those that were started. Main statement: no run is lost, and none ends twice.
-/

namespace Playhead

/-- Whether an event tells the end of a run. -/
def Event.isEndOf (h : TransientHandle) : Event → Bool
  | .transientFinished k _ => k = h
  | _ => false

/-- Whether an event tells the end of a run that was started later than another. -/
def Event.isEndAfter (h : TransientHandle) : Event → Bool
  | .transientFinished k _ => h.number < k.number
  | _ => false

namespace TransientRunner

/-- Turns after which a run is the same, and which leave it to the runner to tell its end. -/
structure Fair (turn : TransientRun → Scene → TransientRun × Scene × Option TransientStatus) :
    Prop where
  handle : ∀ r s, (turn r s).1.handle = r.handle
  told : ∀ r s, ∃ l, (turn r s).2.1.events = s.events ++ l ∧
    ∀ e ∈ l, ∀ h status, e ≠ .transientFinished h status

/-- A call of the host, with the scopes that are cancelled at the time. -/
inductive Call where
  | start (d : Document) (scope : CancelScope)
  | tick (registry : Registry) (c : Cancellations) (delta : Nanoseconds) (budget : Nat)
  | reapCancelled (c : Cancellations)
  | cancelAll (c : Cancellations)
  | takeStatus (h : TransientHandle)
  /-- Others write to the services. -/
  | write (services : ServiceSet)
  /-- The runs take turns of any kind. A tick in which scopes are cancelled while it goes on is a
  case of it. -/
  | visit (turn : TransientRun → Scene → TransientRun × Scene × Option TransientStatus)
    (fair : Fair turn)

/-- What came about in a course of calls. -/
structure Course where
  runner : TransientRunner
  /-- The handles given out, in the order of the starts. -/
  handles : List TransientHandle
  /-- The services, and all that was told. -/
  scene : Scene

namespace Course

def call (k : Course) : Call → Course
  | .start d scope =>
    { k with
      runner := (k.runner.start d scope).2
      handles := k.handles ++ [(k.runner.start d scope).1] }
  | .tick registry c delta budget =>
    { k with
      runner := (k.runner.tick registry c k.scene delta budget).1
      scene := (k.runner.tick registry c k.scene delta budget).2 }
  | .reapCancelled c =>
    { k with
      runner := (k.runner.reapCancelled c k.scene).1
      scene := (k.runner.reapCancelled c k.scene).2 }
  | .cancelAll c =>
    { k with
      runner := (k.runner.cancelAll c k.scene).1
      scene := (k.runner.cancelAll c k.scene).2.2 }
  | .takeStatus h => { k with runner := (k.runner.takeStatus h).2 }
  | .write services => { k with scene := { k.scene with services := services } }
  | .visit turn _ =>
    { k with
      runner := (k.runner.visitAll turn k.scene).1
      scene := (k.runner.visitAll turn k.scene).2 }

/-- The course of some calls of a new runner. -/
def after (l : List Call) : Course :=
  l.foldl call ⟨.empty, [], ⟨.empty, []⟩⟩

/-- How often the end of a run was told. -/
def ends (k : Course) (h : TransientHandle) : Nat :=
  k.scene.events.countP (Event.isEndOf h)

/-- How often the end of a run was told that was started later than another. -/
def endsAfter (k : Course) (h : TransientHandle) : Nat :=
  k.scene.events.countP (Event.isEndAfter h)

theorem after_append (l more : List Call) : after (l ++ more) = more.foldl call (after l) :=
  List.foldl_append

/-- What a call can do. -/
inductive Does (k : Course) : Call → Course → Prop where
  | start (d : Document) (scope : CancelScope) :
    Does k (.start d scope) { k with
      runner := (k.runner.start d scope).2
      handles := k.handles ++ [(k.runner.start d scope).1] }
  | takeStatus (h : TransientHandle) :
    Does k (.takeStatus h) { k with runner := (k.runner.takeStatus h).2 }
  | write (services : ServiceSet) :
    Does k (.write services) { k with scene := { k.scene with services := services } }
  | visit {op : Call}
    (turn : TransientRun → Scene → TransientRun × Scene × Option TransientStatus)
    (fair : Fair turn) :
    Does k op { k with
      runner := (k.runner.visitAll turn k.scene).1
      scene := (k.runner.visitAll turn k.scene).2 }

end Course

theorem fair_advance (registry : Registry) (c : Cancellations) (delta : Nanoseconds)
    (budget : Nat) :
    Fair fun r s => r.advance registry (c.isCancelled r.scope) s delta budget where
  handle r s := (r.advance_same registry _ s delta budget).1
  told r s := by
    have hkept : TransientRun.Kept registry fun _ s' => ∃ l, s'.events = s.events ++ l ∧
        ∀ e ∈ l, ∀ h status, e ≠ .transientFinished h status := by
      refine TransientRun.kept_scene (fun s' services h => h) ?_
      rintro s' spot message ⟨l, hl, hnone⟩
      refine ⟨l ++ [.fault spot message], ?_, fun e he h status => ?_⟩
      · rw [Scene.events_emit, hl, List.append_assoc]
      · rcases List.mem_append.1 he with he | he
        · exact hnone e he h status
        · rw [List.mem_singleton.1 he]
          exact nofun
    exact hkept.advance (r := r) ⟨[], by simp⟩ _ delta budget

theorem fair_reap (c : Cancellations) : Fair (reap c) where
  handle r s := (reap_same c r s).1
  told r s := by
    unfold reap
    split <;> exact ⟨[], (List.append_nil _).symm, nofun⟩

theorem Course.call_cases (k : Course) (op : Call) : k.Does op (k.call op) := by
  cases op with
  | start d scope => exact .start d scope
  | takeStatus h => exact .takeStatus h
  | write services => exact .write services
  | tick registry c delta budget => exact .visit _ (fair_advance registry c delta budget)
  | reapCancelled c => exact .visit _ (fair_reap c)
  | cancelAll c =>
    exact .visit _
      (fair_reap (k.runner.runs.foldl (fun c (r : TransientRun) => c.cancel r.scope) c))
  | visit turn fair => exact .visit turn fair

section

variable {turn : TransientRun → Scene → TransientRun × Scene × Option TransientStatus}
  {runs : List TransientRun} {t : TransientRunner} {r r' : TransientRun} {s s' : Scene}
  {ended : Option TransientStatus}

theorem Fair.handle_eq (hfair : Fair turn) (hturn : turn r s = (r', s', ended)) :
    r'.handle = r.handle := by
  have hhandle := hfair.handle r s
  rwa [hturn] at hhandle

/-- A turn takes nothing back of what was told. -/
theorem Fair.prefix_events (hfair : Fair turn) (hturn : turn r s = (r', s', ended)) :
    s.events <+: s'.events := by
  obtain ⟨l, hl, -⟩ := hfair.told r s
  rw [hturn] at hl
  exact ⟨l, hl.symm⟩

/-- A turn tells no end by itself. -/
theorem Fair.countP_events (hfair : Fair turn) (hturn : turn r s = (r', s', ended))
    (h : TransientHandle) :
    s'.events.countP (Event.isEndOf h) = s.events.countP (Event.isEndOf h) := by
  obtain ⟨l, hl, hnone⟩ := hfair.told r s
  rw [hturn] at hl
  have hzero : l.countP (Event.isEndOf h) = 0 := by
    refine List.countP_eq_zero.2 fun e he hend => ?_
    cases e with
    | transientFinished k status => exact hnone _ he k status rfl
    | _ => cases hend
  rw [show s'.events = s.events ++ l from hl, List.countP_append, hzero, Nat.add_zero]

/-- What no turn of a run ends no visit of all runs ends. -/
theorem visitAll_induction {I : TransientRunner → Scene → Prop}
    (stays : ∀ (t : TransientRunner) r rest s r' s', turn r s = (r', s', none) →
      I (t.awaiting (r :: rest)) s →
      I (({ t with runs := t.runs ++ [r'] } : TransientRunner).awaiting rest) s')
    (ends : ∀ (t : TransientRunner) r rest s r' s' status, turn r s = (r', s', some status) →
      I (t.awaiting (r :: rest)) s →
      I ((t.remember r'.handle status).awaiting rest)
        (s'.emit (.transientFinished r'.handle status)))
    (h : I t s) : I (t.visitAll turn s).1 (t.visitAll turn s).2 :=
  visit_induction stays ends h

/-- What a turn makes of the runner: the run stays in line, or its end is remembered and told. -/
def settle (t : TransientRunner) :
    TransientRun × Scene × Option TransientStatus → TransientRunner × Scene
  | (r, s, none) => ({ t with runs := t.runs ++ [r] }, s)
  | (r, s, some status) =>
    (t.remember r.handle status, s.emit (.transientFinished r.handle status))

/-- The runs are visited one after the other, each once. -/
theorem visit_eq_foldl (turn : TransientRun → Scene → TransientRun × Scene × Option TransientStatus)
    (runs : List TransientRun) (t : TransientRunner) (s : Scene) :
    visit turn runs t s = runs.foldl (fun x r => x.1.settle (turn r x.2)) (t, s) := by
  induction runs generalizing t s with
  | nil => rfl
  | cons r rest ih =>
    unfold visit
    rw [List.foldl_cons]
    cases turn r s with
    | mk r' x =>
      obtain ⟨s', _ | status⟩ := x
      · exact ih _ _
      · exact ih _ _

/-- A tick advances the runs in progress one after the other, each once. -/
theorem tick_eq_foldl (t : TransientRunner) (registry : Registry) (c : Cancellations) (s : Scene)
    (delta : Nanoseconds) (budget : Nat) :
    t.tick registry c s delta budget = t.runs.foldl (fun x r =>
      x.1.settle (r.advance registry (c.isCancelled r.scope) x.2 delta budget))
      ({ t with runs := [] }, s) :=
  visit_eq_foldl _ t.runs _ s

/-- Visits take nothing back of what was told. -/
theorem prefix_visitAll (hfair : Fair turn) (t : TransientRunner) (s : Scene) :
    s.events <+: (t.visitAll turn s).2.events := by
  refine visitAll_induction (I := fun _ s' => s.events <+: s'.events) ?_ ?_ (List.prefix_refl _)
  · intro t r rest s₁ r' s' hturn h
    exact h.trans (hfair.prefix_events hturn)
  · intro t r rest s₁ r' s' status hturn h
    rw [Scene.events_emit]
    exact (h.trans (hfair.prefix_events hturn)).trans (List.prefix_append _ _)

end

namespace Course

theorem prefix_call (k : Course) (op : Call) : k.scene.events <+: (k.call op).scene.events := by
  have hdoes := k.call_cases op
  generalize k.call op = k' at hdoes ⊢
  cases hdoes with
  | visit turn fair => exact prefix_visitAll fair k.runner k.scene
  | _ => exact List.prefix_refl _

theorem prefix_foldl_call (k : Course) (l : List Call) :
    k.scene.events <+: (l.foldl call k).scene.events := by
  induction l generalizing k with
  | nil => exact List.prefix_refl _
  | cons op rest ih => exact (k.prefix_call op).trans (ih (k.call op))

end Course

/-- A runner whose runs were started under these handles and ended as the scene tells. -/
structure Tallied (handles : List TransientHandle) (t : TransientRunner) (s : Scene) : Prop where
  numbered : t.Numbered
  numbers : handles = (List.range t.started).map fun n => ⟨n + 1⟩
  balanced : ∀ h, s.events.countP (Event.isEndOf h) + (t.runs.map (·.handle)).count h =
    handles.count h
  told : ∀ f ∈ t.finished, .transientFinished ⟨f.1⟩ f.2 ∈ s.events
  bounded : t.finished.length ≤ historySize

variable {handles : List TransientHandle} {t : TransientRunner} {s s' : Scene} {r r' : TransientRun}
  {runs : List TransientRun} {status : TransientStatus} {h : TransientHandle}
  {turn : TransientRun → Scene → TransientRun × Scene × Option TransientStatus}

theorem isRunning_iff : t.isRunning h = true ↔ h ∈ t.runs.map (·.handle) := by
  simp [isRunning]

theorem map_handle_start (t : TransientRunner) (d : Document) (scope : CancelScope) :
    (t.start d scope).2.runs.map (·.handle) = t.runs.map (·.handle) ++ [⟨t.started + 1⟩] :=
  List.map_append

theorem length_dropOldest_lt {l : List (Nat × TransientStatus)} (hl : l ≠ []) :
    (dropOldest l).length < l.length := by
  unfold dropOldest
  cases hmin : (l.map (·.1)).min? with
  | none => exact absurd (List.map_eq_nil_iff.1 (List.min?_eq_none_iff.1 hmin)) hl
  | some oldest =>
    obtain ⟨e, he, hold⟩ := List.mem_map.1 (List.min?_mem hmin)
    exact List.length_filter_lt_length_iff_exists.2 ⟨e, he, by simp [hold]⟩

theorem length_remember (h : TransientHandle) (status : TransientStatus)
    (ht : t.finished.length ≤ historySize) :
    (t.remember h status).finished.length ≤ historySize := by
  unfold remember
  dsimp only
  split
  · have hlt := length_dropOldest_lt (List.cons_ne_nil (h.number, status) t.finished)
    rw [List.length_cons] at hlt
    omega
  · omega

namespace Tallied

theorem nodup (ht : Tallied handles t s) : handles.Nodup := by
  rw [ht.numbers]
  refine List.Nodup.map (fun a b hab => ?_) List.nodup_range
  simpa using hab

theorem number_le (ht : Tallied handles t s) (hh : h ∈ handles) : h.number ≤ t.started := by
  rw [ht.numbers] at hh
  obtain ⟨n, hn, rfl⟩ := List.mem_map.1 hh
  exact Nat.succ_le_of_lt (List.mem_range.1 hn)

theorem mem_of_running (ht : Tallied handles t s) (hr : h ∈ t.runs.map (·.handle)) :
    h ∈ handles := by
  have hcount := ht.balanced h
  have hpos := List.count_pos_iff.2 hr
  exact List.count_pos_iff.1 (by omega)

theorem mem_of_told (ht : Tallied handles t s) (hs : .transientFinished h status ∈ s.events) :
    h ∈ handles := by
  have hcount := ht.balanced h
  have hpos : 0 < s.events.countP (Event.isEndOf h) :=
    List.countP_pos_iff.2 ⟨_, hs, decide_eq_true rfl⟩
  exact List.count_pos_iff.1 (by omega)

/-- Runs are in progress in the order in which they were started. -/
theorem runs_eq (ht : Tallied handles t s) :
    t.runs.map (·.handle) = handles.filter t.isRunning := by
  have hlt : (handles.map (·.number)).Pairwise (· < ·) := by
    rw [ht.numbers, List.map_map]
    exact List.pairwise_map.2 (List.pairwise_lt_range.imp Nat.succ_lt_succ)
  have hordered : ((handles.filter t.isRunning).map (·.number)).Pairwise (· < ·) :=
    hlt.sublist (List.filter_sublist.map _)
  have hruns : ((t.runs.map (·.handle)).map (·.number)).Pairwise (· < ·) := by
    rw [List.map_map]
    exact List.pairwise_map.2 ht.numbered.ordered
  have hinj : Function.Injective TransientHandle.number := fun _ _ =>
    TransientHandle.eq_of_number
  have hmem : ∀ h, h ∈ t.runs.map (·.handle) ↔ h ∈ handles.filter t.isRunning := by
    intro h
    rw [List.mem_filter, isRunning_iff]
    exact ⟨fun hr => ⟨ht.mem_of_running hr, hr⟩, fun hr => hr.2⟩
  apply List.map_injective_iff.2 hinj
  exact List.Subset.antisymm_of_pairwise hruns hordered
    (List.map_subset _ fun h => (hmem h).1) (List.map_subset _ fun h => (hmem h).2)

/-- A run that was started is in progress, or it was told once that it has ended. -/
theorem ends_eq (ht : Tallied handles t s) (h : TransientHandle) :
    s.events.countP (Event.isEndOf h) =
      if h ∈ handles ∧ t.isRunning h = false then 1 else 0 := by
  have hcount := ht.balanced h
  have hruns : (t.runs.map (·.handle)).count h = if t.isRunning h = true then 1 else 0 := by
    rw [ht.runs_eq]
    split
    · rename_i hr
      have hmem : h ∈ handles.filter t.isRunning :=
        ht.runs_eq ▸ isRunning_iff.1 hr
      exact List.count_eq_one_of_mem (ht.nodup.filter _) hmem
    · rename_i hr
      exact List.count_eq_zero.2 fun hmem => hr (List.mem_filter.1 hmem).2
  by_cases hh : h ∈ handles
  · rw [List.count_eq_one_of_mem ht.nodup hh, hruns] at hcount
    cases hr : t.isRunning h <;> simp [hr, hh] at hcount ⊢ <;> omega
  · rw [List.count_eq_zero.2 hh] at hcount
    rw [if_neg fun hboth => hh hboth.1]
    omega

/-- A turn after which the run goes on. -/
theorem stays (ht : Tallied handles (t.awaiting (r :: runs)) s) (hfair : Fair turn)
    (hturn : turn r s = (r', s', none)) :
    Tallied handles (({ t with runs := t.runs ++ [r'] } : TransientRunner).awaiting runs) s' where
  numbered := ht.numbered.keep (hfair.handle_eq hturn)
  numbers := ht.numbers
  balanced h := by
    rw [hfair.countP_events hturn, ← ht.balanced h]
    simp [awaiting, hfair.handle_eq hturn]
  told f hf := (hfair.prefix_events hturn).subset (ht.told f hf)
  bounded := ht.bounded

/-- A turn in which the run ends. -/
theorem ends (ht : Tallied handles (t.awaiting (r :: runs)) s) (hfair : Fair turn)
    (hturn : turn r s = (r', s', some status)) :
    Tallied handles ((t.remember r.handle status).awaiting runs)
      (s'.emit (.transientFinished r.handle status)) where
  numbered := ht.numbered.finish status
  numbers := ht.numbers
  balanced h := by
    rw [Scene.events_emit, List.countP_append, hfair.countP_events hturn, ← ht.balanced h]
    by_cases hh : r.handle = h
    · simp [awaiting, remember, Event.isEndOf, hh]
      omega
    · simp [awaiting, remember, Event.isEndOf, hh]
  told f hf := by
    rw [Scene.events_emit]
    rcases mem_remember hf with rfl | hf
    · exact List.mem_append_right _ List.mem_cons_self
    · exact List.mem_append_left _ ((hfair.prefix_events hturn).subset (ht.told f hf))
  bounded := length_remember r.handle status ht.bounded

theorem visitAll (hfair : Fair turn) (ht : Tallied handles t s) :
    Tallied handles (t.visitAll turn s).1 (t.visitAll turn s).2 := by
  refine visitAll_induction (fun t r rest s r' s' hturn ht => ht.stays hfair hturn)
    (fun t r rest s r' s' status hturn ht => ?_) ht
  rw [hfair.handle_eq hturn]
  exact ht.ends hfair hturn

theorem start (ht : Tallied handles t s) (d : Document) (scope : CancelScope) :
    Tallied (handles ++ [(t.start d scope).1]) (t.start d scope).2 s where
  numbered := ht.numbered.start d scope
  numbers := by
    show handles ++ [⟨t.started + 1⟩] = (List.range (t.started + 1)).map _
    rw [List.range_succ, List.map_append, ← ht.numbers]
    rfl
  balanced h := by
    rw [map_handle_start, List.count_append, List.count_append, ← ht.balanced h]
    exact (Nat.add_assoc _ _ _).symm
  told := ht.told
  bounded := ht.bounded

theorem takeStatus (ht : Tallied handles t s) (h : TransientHandle) :
    Tallied handles (t.takeStatus h).2 s := by
  refine ⟨ht.numbered.takeStatus h, ?_, ?_, ?_, ?_⟩ <;> unfold TransientRunner.takeStatus <;> split
  · exact ht.numbers
  · exact ht.numbers
  · exact ht.balanced
  · exact ht.balanced
  · exact ht.told
  · exact fun f hf => ht.told f (List.mem_filter.1 hf).1
  · exact ht.bounded
  · exact (List.length_filter_le _ _).trans ht.bounded

end Tallied

namespace Course

variable {k k' : Course} {op : Call}

/-- A course in which all runs are accounted for. -/
def Tallied (k : Course) : Prop :=
  TransientRunner.Tallied k.handles k.runner k.scene

theorem Tallied.call (hk : k.Tallied) (op : Call) : (k.call op).Tallied := by
  have hdoes := k.call_cases op
  generalize k.call op = k' at hdoes ⊢
  cases hdoes with
  | start d scope => exact TransientRunner.Tallied.start hk d scope
  | takeStatus h => exact TransientRunner.Tallied.takeStatus hk h
  | write services => exact ⟨hk.numbered, hk.numbers, hk.balanced, hk.told, hk.bounded⟩
  | visit turn fair => exact TransientRunner.Tallied.visitAll fair hk

theorem tallied_after (l : List Call) : (after l).Tallied := by
  have hfirst : Course.Tallied ⟨.empty, [], ⟨.empty, []⟩⟩ :=
    ⟨⟨.nil, nofun, nofun, .nil⟩, rfl, fun _ => rfl, nofun, Nat.zero_le _⟩
  exact List.foldlRecOn l call hfirst fun k hk op _ => hk.call op

/-- An end that was told is the last that is heard of a run. -/
theorem Tallied.stays_ended (hk : k.Tallied) (h : TransientHandle) (hends : k.ends h = 1)
    (l : List Call) :
    (l.foldl Course.call k).runner.isRunning h = false ∧ (l.foldl Course.call k).ends h = 1 := by
  have hlater : (l.foldl Course.call k).Tallied :=
    List.foldlRecOn l Course.call hk fun _ h op _ => h.call op
  have hgrows : k.ends h ≤ (l.foldl Course.call k).ends h :=
    (prefix_foldl_call k l).sublist.countP_le
  have heq : (l.foldl Course.call k).ends h = _ := TransientRunner.Tallied.ends_eq hlater h
  split at heq
  · rename_i hboth
    exact ⟨hboth.2, heq⟩
  · omega

/-- Whatever is called, no run is lost, and none ends twice. Handles are distinct; the runs in
progress are in the order of their starts, in which every tick advances each of them once; and of
all others that were started the end was told, once and for all. -/
theorem ends_once (calls more : List Call) (h : TransientHandle) :
    (after calls).handles.Nodup ∧
    (after calls).runner.runs.map (·.handle) =
      (after calls).handles.filter (after calls).runner.isRunning ∧
    (after calls).ends h =
      (if h ∈ (after calls).handles ∧ (after calls).runner.isRunning h = false then 1 else 0) ∧
    ((after calls).ends h = 1 → (after (calls ++ more)).runner.isRunning h = false ∧
      (after (calls ++ more)).ends h = 1) ∧
    (∀ registry c delta budget,
      (after calls).runner.tick registry c (after calls).scene delta budget =
        (after calls).runner.runs.foldl (fun x r =>
          x.1.settle (r.advance registry (c.isCancelled r.scope) x.2 delta budget))
          ({ (after calls).runner with runs := [] }, (after calls).scene)) ∧
    (after calls).runner.finished.length ≤ historySize := by
  have hk := tallied_after calls
  refine ⟨TransientRunner.Tallied.nodup hk, TransientRunner.Tallied.runs_eq hk,
    TransientRunner.Tallied.ends_eq hk h, fun hends => ?_,
    fun registry c delta budget => tick_eq_foldl _ registry c _ delta budget, hk.bounded⟩
  rw [after_append]
  exact hk.stays_ended h hends more

/-- A script that waits for a second. -/
def nap : Document :=
  { (default : Document) with
    name := "nap"
    commands := #[⟨"wait", .ofList [("time", .text "1")], ⟨1, 0⟩, .none⟩] }

/-- A script without a command. -/
def blank : Document :=
  { (default : Document) with name := "blank" }

/-- A long run and a short one, which ends first. -/
def shortAndLong : List Call :=
  [.start nap ⟨0, []⟩, .start blank ⟨1, []⟩, .tick .builtin .empty 0 16]

/-- The long run ends, and another one is cancelled. -/
def longEnds : List Call :=
  [.start blank ⟨2, []⟩, .reapCancelled ⟨3, [2]⟩, .takeStatus ⟨2⟩,
    .tick .builtin .empty 1000000000 16]

theorem ends_once_shortAndLong :
    (after shortAndLong).handles = [⟨1⟩, ⟨2⟩] ∧
    (after shortAndLong).runner.runs.map (·.handle) = [⟨1⟩] ∧
    (after shortAndLong).ends ⟨2⟩ = 1 ∧
    (after (shortAndLong ++ longEnds)).runner.runs.map (·.handle) = [] ∧
    (after (shortAndLong ++ longEnds)).runner.isRunning ⟨2⟩ = false ∧
    (after (shortAndLong ++ longEnds)).ends ⟨2⟩ = 1 := by
  have hends : (after shortAndLong).ends ⟨2⟩ = 1 := by decide +kernel
  obtain ⟨-, -, -, hover, -, -⟩ := ends_once shortAndLong longEnds ⟨2⟩
  obtain ⟨hrunning, hlater⟩ := hover hends
  exact ⟨by decide +kernel, by decide +kernel, hends, by decide +kernel, hrunning, hlater⟩

end Course

end TransientRunner

end Playhead
