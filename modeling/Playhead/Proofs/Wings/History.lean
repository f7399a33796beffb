import Playhead.Proofs.Wings.Calls

/-!
How long a runner remembers how a run ended.

The history drops the run that was started first, not the one that ended first. Main statement: the
end of a run is remembered until it is taken or as many runs as the history holds, all of them
started later, have ended. These may have ended before it, and then it is not remembered at all.
-/

namespace Playhead

namespace TransientRunner

/-- A run that has ended in a way that is remembered, unless later ones have pushed it out. -/
structure Remembered (h : TransientHandle) (final : TransientStatus) (t : TransientRunner)
    (s : Scene) : Prop where
  ended : t.isRunning h = false
  told : .transientFinished h final ∈ s.events
  kept : t.finished.lookup h.number = some final ∨
    historySize ≤ s.events.countP (Event.isEndAfter h)

variable {handles : List TransientHandle} {t : TransientRunner} {s s' : Scene} {r r' : TransientRun}
  {runs : List TransientRun} {status final : TransientStatus} {h : TransientHandle}
  {turn : TransientRun → Scene → TransientRun × Scene × Option TransientStatus}

/-- Entries of runs that were started later than another are as many ends that were told. -/
theorem length_le_countP {l : List (Nat × TransientStatus)} {events : List Event}
    (hl : (l.map (·.1)).Nodup) (htold : ∀ f ∈ l, .transientFinished ⟨f.1⟩ f.2 ∈ events)
    (hafter : ∀ f ∈ l, h.number < f.1) : l.length ≤ events.countP (Event.isEndAfter h) := by
  obtain ⟨ends, hends⟩ : ∃ ends : List Event,
      ends = l.map fun f => .transientFinished ⟨f.1⟩ f.2 := ⟨_, rfl⟩
  have hnodup : ends.Nodup := by
    rw [hends]
    refine List.Nodup.map (fun f g hfg => ?_) (List.Nodup.of_map _ hl)
    cases f
    cases g
    cases hfg
    rfl
  have hsub : ends ⊆ events.filter (Event.isEndAfter h) := by
    intro e he
    rw [hends] at he
    obtain ⟨f, hf, rfl⟩ := List.mem_map.1 he
    exact List.mem_filter.2 ⟨htold f hf, decide_eq_true (hafter f hf)⟩
  calc l.length
    _ = ends.length := by rw [hends, List.length_map]
    _ ≤ (events.filter (Event.isEndAfter h)).length :=
      (List.subperm_of_subset hnodup hsub).length_le
    _ = events.countP (Event.isEndAfter h) := List.countP_eq_length_filter.symm

/-- What is known of an ended run when the end of another one, or its own, is remembered. -/
theorem Tallied.kept_remember {k : TransientHandle}
    (ht : Tallied handles ((t.remember k status).awaiting runs) s)
    (hl : (((k.number, status) :: t.finished).map (·.1)).Nodup)
    (hn : ((k.number, status) :: t.finished).lookup h.number = some final ∨
      historySize ≤ s.events.countP (Event.isEndAfter h)) :
    (t.remember k status).finished.lookup h.number = some final ∨
      historySize ≤ s.events.countP (Event.isEndAfter h) := by
  rcases hn with hn | hn
  · rcases lookup_remember hl hn with hkept | ⟨-, hfull, hafter⟩
    · exact .inl hkept
    · exact .inr (hfull.trans (length_le_countP ht.numbered.once ht.told hafter))
  · exact .inr hn

theorem not_running_iff : t.isRunning h = false ↔ h ∉ t.runs.map (·.handle) := by
  rw [← isRunning_iff, Bool.not_eq_true]

theorem isRunning_takeStatus (t : TransientRunner) (k h : TransientHandle) :
    (t.takeStatus k).2.isRunning h = t.isRunning h := by
  unfold TransientRunner.takeStatus
  split <;> rfl

/-- A run at its own end. -/
theorem Tallied.remembered_finish (ht : Tallied handles (t.awaiting (r :: runs)) s)
    (ht' : Tallied handles ((t.remember r.handle status).awaiting runs)
      (s'.emit (.transientFinished r.handle status))) :
    Remembered r.handle status ((t.remember r.handle status).awaiting runs)
      (s'.emit (.transientFinished r.handle status)) := by
  refine ⟨not_running_iff.2 fun hmem => ?_, ?_, ?_⟩
  · obtain ⟨k, hk, heq⟩ := List.mem_map.1 hmem
    exact ht.numbered.ne hk (congrArg TransientHandle.number heq.symm)
  · rw [Scene.events_emit]
    exact List.mem_append_right _ List.mem_cons_self
  · refine ht'.kept_remember (ht.numbered.nodup_cons status) (.inl ?_)
    rw [List.lookup_cons, beq_self_eq_true]

namespace Remembered

theorem stays (he : Remembered h final (t.awaiting (r :: runs)) s) (hfair : Fair turn)
    (hturn : turn r s = (r', s', none)) :
    Remembered h final (({ t with runs := t.runs ++ [r'] } : TransientRunner).awaiting runs) s' where
  ended := by
    have hover := not_running_iff.1 he.ended
    rw [not_running_iff]
    simpa [awaiting, hfair.handle_eq hturn] using hover
  told := (hfair.prefix_events hturn).subset he.told
  kept := he.kept.imp_right fun hfull =>
    hfull.trans (hfair.prefix_events hturn).sublist.countP_le

theorem ends (he : Remembered h final (t.awaiting (r :: runs)) s) (hfair : Fair turn)
    (hturn : turn r s = (r', s', some status)) (ht : Tallied handles (t.awaiting (r :: runs)) s) :
    Remembered h final ((t.remember r.handle status).awaiting runs)
      (s'.emit (.transientFinished r.handle status)) := by
  have hover := not_running_iff.1 he.ended
  have hgrown : s.events <+: (s'.emit (.transientFinished r.handle status)).events := by
    rw [Scene.events_emit]
    exact (hfair.prefix_events hturn).trans (List.prefix_append _ _)
  refine ⟨not_running_iff.2 fun hmem => hover ?_, hgrown.subset he.told, ?_⟩
  · have hsub : (t.runs ++ runs).Sublist (t.runs ++ r :: runs) :=
      List.Sublist.append_left (List.sublist_cons_self r runs) _
    exact (hsub.map (·.handle)).subset hmem
  · refine (ht.ends hfair hturn).kept_remember (ht.numbered.nodup_cons status) ?_
    rcases he.kept with hlookup | hfull
    · left
      have hne : h ≠ r.handle := fun heq =>
        hover (List.mem_map.2 ⟨r, List.mem_append_right _ List.mem_cons_self, heq.symm⟩)
      rw [lookup_cons_of_ne hne]
      exact hlookup
    · exact .inr (hfull.trans hgrown.sublist.countP_le)

/-- What is remembered of an ended run stays so when runs are visited. -/
theorem visitAll (he : Remembered h final t s) (hfair : Fair turn) (ht : Tallied handles t s) :
    Remembered h final (t.visitAll turn s).1 (t.visitAll turn s).2 := by
  refine (visitAll_induction (I := fun t s => Tallied handles t s ∧ Remembered h final t s)
    ?_ ?_ ⟨ht, he⟩).2
  · rintro t r rest s r' s' hturn ⟨ht, he⟩
    exact ⟨ht.stays hfair hturn, he.stays hfair hturn⟩
  · rintro t r rest s r' s' status hturn ⟨ht, he⟩
    rw [hfair.handle_eq hturn]
    exact ⟨ht.ends hfair hturn, he.ends hfair hturn ht⟩

theorem start (he : Remembered h final t s) (ht : Tallied handles t s) (d : Document)
    (scope : CancelScope) : Remembered h final (t.start d scope).2 s where
  ended := by
    have hold := ht.number_le (ht.mem_of_told he.told)
    have hover := not_running_iff.1 he.ended
    refine not_running_iff.2 fun hmem => ?_
    rw [map_handle_start] at hmem
    rcases List.mem_append.1 hmem with hmem | hmem
    · exact hover hmem
    · rw [List.mem_singleton.1 hmem] at hold
      exact Nat.not_succ_le_self _ hold
  told := he.told
  kept := he.kept

theorem takeStatus (he : Remembered h final t s) {k : TransientHandle} (hk : k ≠ h) :
    Remembered h final (t.takeStatus k).2 s := by
  unfold TransientRunner.takeStatus
  split
  · exact he
  · refine ⟨he.ended, he.told, he.kept.imp_left fun hlookup => ?_⟩
    have hne : h.number ≠ k.number := fun heq => hk (TransientHandle.eq_of_number heq).symm
    rw [lookup_filter_ne, if_neg hne]
    exact hlookup

end Remembered

/-- A run in progress is still in progress after a visit, or it has ended in a way that is
remembered. -/
theorem running_visitAll (hr : t.isRunning h = true) (hfair : Fair turn)
    (ht : Tallied handles t s) :
    (t.visitAll turn s).1.isRunning h = true ∨
      ∃ final, Remembered h final (t.visitAll turn s).1 (t.visitAll turn s).2 := by
  refine (visitAll_induction (I := fun t s => Tallied handles t s ∧
    (t.isRunning h = true ∨ ∃ final, Remembered h final t s)) ?_ ?_ ⟨ht, .inl hr⟩).2
  · rintro t r rest s r' s' hturn ⟨ht, hopen⟩
    refine ⟨ht.stays hfair hturn, ?_⟩
    rcases hopen with hr | ⟨final, he⟩
    · left
      rw [isRunning_iff] at hr ⊢
      simpa [awaiting, hfair.handle_eq hturn] using hr
    · exact .inr ⟨final, he.stays hfair hturn⟩
  · rintro t r rest s r' s' status hturn ⟨ht, hopen⟩
    rw [hfair.handle_eq hturn]
    have ht' := ht.ends hfair hturn
    refine ⟨ht', ?_⟩
    rcases hopen with hr | ⟨final, he⟩
    · by_cases hown : r.handle = h
      · exact .inr ⟨status, hown ▸ ht.remembered_finish ht'⟩
      · left
        rw [isRunning_iff] at hr ⊢
        simpa [awaiting, remember, hown, Ne.symm hown] using hr
    · exact .inr ⟨final, he.ends hfair hturn ht⟩

namespace Course

variable {k : Course} {op : Call}

/-- What is remembered of an ended run stays so until it is taken. -/
theorem remembered_call (hk : k.Tallied) (he : Remembered h final k.runner k.scene)
    (hop : op ≠ .takeStatus h) : Remembered h final (k.call op).runner (k.call op).scene := by
  have hdoes := k.call_cases op
  generalize k.call op = k' at hdoes ⊢
  cases hdoes with
  | start d scope => exact he.start hk d scope
  | takeStatus j => exact he.takeStatus fun heq => hop (heq ▸ rfl)
  | write services => exact ⟨he.ended, he.told, he.kept⟩
  | visit turn fair => exact he.visitAll fair hk

theorem remembered_foldl_call {l : List Call} (hk : k.Tallied)
    (he : Remembered h final k.runner k.scene) (hl : .takeStatus h ∉ l) :
    Remembered h final (l.foldl call k).runner (l.foldl call k).scene := by
  induction l generalizing k with
  | nil => exact he
  | cons op rest ih =>
    have hop : op ≠ .takeStatus h := fun heq => hl (heq ▸ List.mem_cons_self)
    exact ih (hk.call op) (remembered_call hk he hop) fun hmem => hl (List.mem_cons_of_mem op hmem)

/-- Runs end in turns only. -/
theorem remembered_of_ends (hk : k.Tallied) (hrun : k.runner.isRunning h = true)
    (hend : (k.call op).runner.isRunning h = false) :
    ∃ final, Remembered h final (k.call op).runner (k.call op).scene := by
  have hdoes := k.call_cases op
  generalize k.call op = k' at hdoes hend ⊢
  cases hdoes with
  | start d scope =>
    have hnot := not_running_iff.1 hend
    rw [map_handle_start] at hnot
    exact absurd (List.mem_append_left _ (isRunning_iff.1 hrun)) hnot
  | takeStatus j =>
    rw [isRunning_takeStatus] at hend
    cases hrun.symm.trans hend
  | write services => cases hrun.symm.trans hend
  | visit turn fair =>
    rcases running_visitAll hrun fair hk with hr | hremembered
    · cases hr.symm.trans hend
    · exact hremembered

/-- The end of a run is remembered until it is taken or as many runs as the history holds, all of
them started later, have ended. -/
theorem status_kept {before : List Call} {ending : Call} {h : TransientHandle}
    (hrun : (after before).runner.isRunning h = true)
    (hend : (after (before ++ [ending])).runner.isRunning h = false) :
    ∃ final, .transientFinished h final ∈ (after (before ++ [ending])).scene.events ∧
      ∀ later, .takeStatus h ∉ later →
        (after (before ++ ending :: later)).endsAfter h < historySize →
        (after (before ++ ending :: later)).runner.status? h = some final := by
  have hcalls : ∀ later, after (before ++ ending :: later) =
      later.foldl call ((after before).call ending) := fun later => after_append before _
  have hk := tallied_after before
  rw [hcalls []] at hend ⊢
  obtain ⟨final, he⟩ := remembered_of_ends hk hrun hend
  refine ⟨final, he.told, fun later htake hroom => ?_⟩
  rw [hcalls] at hroom ⊢
  have hlater := remembered_foldl_call (hk.call ending) he htake
  unfold TransientRunner.status?
  rw [hlater.ended]
  rcases hlater.kept with hlookup | hfull
  · exact hlookup
  · exact absurd hfull (Nat.not_le_of_lt hroom)

/-- A second passes. -/
def second : Call :=
  .tick .builtin .empty 1000000000 16

/-- Another short run ends, and the end of the first short one is taken. -/
def afterLong : List Call :=
  [.start blank ⟨2, []⟩, .tick .builtin .empty 0 16, .takeStatus ⟨2⟩]

theorem status_kept_shortAndLong :
    (after shortAndLong).runner.isRunning ⟨1⟩ = true ∧
    (after (shortAndLong ++ [second])).runner.isRunning ⟨1⟩ = false ∧
    .takeStatus ⟨1⟩ ∉ afterLong ∧
    (after (shortAndLong ++ second :: afterLong)).endsAfter ⟨1⟩ = 2 ∧
    ∃ final, .transientFinished ⟨1⟩ final ∈ (after (shortAndLong ++ [second])).scene.events ∧
      (after (shortAndLong ++ second :: afterLong)).runner.status? ⟨1⟩ = some final := by
  have hrun : (after shortAndLong).runner.isRunning ⟨1⟩ = true := by decide +kernel
  have hend : (after (shortAndLong ++ [second])).runner.isRunning ⟨1⟩ = false := by decide +kernel
  have htake : .takeStatus ⟨1⟩ ∉ afterLong := by simp [afterLong]
  have hafter : (after (shortAndLong ++ second :: afterLong)).endsAfter ⟨1⟩ = 2 := by
    decide +kernel
  obtain ⟨final, htold, hkept⟩ := status_kept hrun hend
  exact ⟨hrun, hend, htake, hafter, final, htold, hkept afterLong htake (by rw [hafter]; decide)⟩

/-- A long run, and as many short ones as the history holds, which end first. -/
def crowd : List Call :=
  .start nap ⟨0, []⟩ :: List.replicate historySize (.start blank ⟨1, []⟩) ++
    [.tick .builtin .empty 0 16]

/-- The end of the long run is told, no other run ends after it and nothing is taken, but how it
ended is not remembered. -/
theorem status_kept_crowd :
    (after crowd).runner.isRunning ⟨1⟩ = true ∧
    (after (crowd ++ [second])).runner.isRunning ⟨1⟩ = false ∧
    (after (crowd ++ [second])).scene.events =
      (after crowd).scene.events ++ [.transientFinished ⟨1⟩ .completed] ∧
    (after (crowd ++ [second])).runner.status? ⟨1⟩ = none := by
  decide +kernel

end Course

end TransientRunner

end Playhead
