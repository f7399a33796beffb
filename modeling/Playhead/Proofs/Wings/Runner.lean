import Playhead.Proofs.Wings.Run
import Playhead.Proofs.Wings.Tether

/-!
The runner of transient scripts: its runs keep their handles and scopes, and how each of them ended
is remembered until the history is full.
-/

namespace Playhead

namespace TransientRun

/-- A run of built-in commands. -/
abbrev Native : TransientRun → Prop :=
  Holds fun t => ¬t.IsHost

variable {registry : Registry} {r : TransientRun} {P : Task → Prop}

theorem Native.abandon_eq (hr : r.Native) (s : ServiceSet) : r.abandon s = s := by
  unfold abandon
  split
  · rename_i i t h
    exact Task.cancel_eq (hr i t h) s
  · rfl

/-- A turn leaves a run the same, with a task of the same kind in flight. -/
theorem advance_holds (hreg : registry.Starts P) (hP : ∀ t u, t.Stems u → P t → P u)
    (hr : r.Holds P) (cancelled : Bool) (s : Scene) (delta : Nanoseconds) (budget : Nat) :
    r.Same (r.advance registry cancelled s delta budget).1 ∧
      (r.advance registry cancelled s delta budget).1.Holds P :=
  (kept_holds hreg hP r).advance ⟨.refl r, hr⟩ cancelled delta budget

theorem advance_same (registry : Registry) (cancelled : Bool) (r : TransientRun) (s : Scene)
    (delta : Nanoseconds) (budget : Nat) :
    r.Same (r.advance registry cancelled s delta budget).1 :=
  (advance_holds (P := fun _ => True) (fun _ _ _ _ _ _ => trivial) (fun _ _ _ _ => trivial)
    (fun _ _ _ => trivial) cancelled s delta budget).1

end TransientRun

theorem TransientHandle.eq_of_number {h k : TransientHandle} (heq : h.number = k.number) :
    h = k := by
  cases h
  exact congrArg mk heq

namespace TransientRunner

variable {t : TransientRunner} {l : List (Nat × TransientStatus)} {h : TransientHandle}
  {status : TransientStatus}

/-- Handles are numbered in the order of the starts, and each run is in progress or finished. -/
structure Numbered (t : TransientRunner) : Prop where
  ordered : t.runs.Pairwise fun a b => a.handle.number < b.handle.number
  started : ∀ r ∈ t.runs, r.handle.number ≤ t.started
  finished : ∀ f ∈ t.finished, f.1 ≤ t.started ∧ ∀ r ∈ t.runs, f.1 ≠ r.handle.number
  once : (t.finished.map (·.1)).Nodup

theorem dropOldest_sublist (l : List (Nat × TransientStatus)) : (dropOldest l).Sublist l := by
  unfold dropOldest
  split
  · exact List.filter_sublist
  · exact .refl l

/-- Distinct entries lose at most the one of a number. -/
theorem length_filter_ne (hl : (l.map (·.1)).Nodup) (n : Nat) :
    l.length ≤ (l.filter fun e => e.1 ≠ n).length + 1 := by
  induction l with
  | nil => exact Nat.zero_le _
  | cons e rest ih =>
    obtain ⟨hnot, hrest⟩ := List.nodup_cons.1 hl
    by_cases he : e.1 = n
    · have hall : rest.filter (fun e => e.1 ≠ n) = rest := by
        refine List.filter_eq_self.2 fun f hf => decide_eq_true fun heq => hnot ?_
        show e.1 ∈ rest.map (·.1)
        rw [he.trans heq.symm]
        exact List.mem_map_of_mem hf
      rw [List.filter_cons_of_neg (by simp [he]), hall]
      exact Nat.le_refl _
    · rw [List.filter_cons_of_pos (by simp [he])]
      exact Nat.succ_le_succ (ih hrest)

theorem length_dropOldest (hl : (l.map (·.1)).Nodup) :
    l.length ≤ (dropOldest l).length + 1 := by
  unfold dropOldest
  split
  · exact length_filter_ne hl _
  · exact Nat.le_succ _

theorem lookup_filter_ne (l : List (Nat × TransientStatus)) (n m : Nat) :
    (l.filter fun e => e.1 ≠ n).lookup m = if m = n then none else l.lookup m := by
  induction l with
  | nil => simp
  | cons e rest ih =>
    by_cases he : e.1 = n
    · rw [List.filter_cons_of_neg (by simp [he]), ih]
      split
      · rfl
      · rename_i hm
        rw [List.lookup_cons, beq_false_of_ne fun h => hm (h.trans he)]
    · rw [List.filter_cons_of_pos (by simp [he]), List.lookup_cons, List.lookup_cons, ih]
      by_cases hm : m = n
      · rw [if_pos hm, if_pos hm, beq_false_of_ne fun h => he (h.symm.trans hm)]
      · rw [if_neg hm, if_neg hm]

theorem lookup_dropOldest (l : List (Nat × TransientStatus)) (n : Nat) :
    (dropOldest l).lookup n = l.lookup n ∨ (dropOldest l).lookup n = none := by
  unfold dropOldest
  split
  · rw [lookup_filter_ne]
    split
    · exact .inr rfl
    · exact .inl rfl
  · exact .inl rfl

/-- How a run ended is remembered, unless the history is full. -/
structure Ended (t : TransientRunner) (h : TransientHandle) (status : TransientStatus) : Prop where
  gone : ∀ r ∈ t.runs, r.handle ≠ h
  known : t.finished.lookup h.number = some status ∨
    t.finished.lookup h.number = none ∧ historySize ≤ t.finished.length

theorem Ended.status?_eq (he : t.Ended h status) : t.status? h = some status ∨
    t.status? h = none ∧ historySize ≤ t.finished.length := by
  have hover : t.isRunning h = false := by
    unfold isRunning
    rw [List.any_eq_false]
    intro r hr
    simpa using he.gone r hr
  unfold status?
  rw [hover]
  exact he.known

theorem lookup_cons_of_ne {k : TransientHandle} (hne : h ≠ k) (status : TransientStatus)
    (l : List (Nat × TransientStatus)) :
    ((k.number, status) :: l).lookup h.number = l.lookup h.number := by
  rw [List.lookup_cons, beq_false_of_ne fun heq => hne (TransientHandle.eq_of_number heq)]

/-- What is known of an ended run when an entry is added: if the entry of this run is dropped, what
is left is a full history of runs that were started later. -/
theorem lookup_remember {n : Nat} {final : TransientStatus}
    (hl : (((h.number, status) :: t.finished).map (·.1)).Nodup)
    (hn : ((h.number, status) :: t.finished).lookup n = some final) :
    (t.remember h status).finished.lookup n = some final ∨
      (t.remember h status).finished.lookup n = none ∧
        historySize ≤ (t.remember h status).finished.length ∧
        ∀ f ∈ (t.remember h status).finished, n < f.1 := by
  unfold remember
  dsimp only
  generalize (h.number, status) :: t.finished = added at hl hn
  split
  · rename_i hfull
    have hleft := length_dropOldest hl
    unfold dropOldest at hleft ⊢
    cases hmin : (added.map (·.1)).min? with
    | none => exact .inl hn
    | some oldest =>
      rw [hmin] at hleft
      dsimp only at hleft ⊢
      rw [lookup_filter_ne]
      by_cases hne : n = oldest
      · refine .inr ⟨if_pos hne, by omega, fun f hf => ?_⟩
        obtain ⟨hmem, hother⟩ := List.mem_filter.1 hf
        have hle : oldest ≤ f.1 := (List.min?_eq_some_iff.1 hmin).2 _ (List.mem_map_of_mem hmem)
        have hneq : f.1 ≠ oldest := by simpa using hother
        omega
      · rw [if_neg hne]
        exact .inl hn
  · exact .inl hn

/-- A run whose entry was dropped stays unknown, and the history stays full. -/
theorem known_remember {n : Nat} {final : TransientStatus}
    (hl : (((h.number, status) :: t.finished).map (·.1)).Nodup)
    (hn : ((h.number, status) :: t.finished).lookup n = some final ∨
      ((h.number, status) :: t.finished).lookup n = none ∧ historySize ≤ t.finished.length) :
    (t.remember h status).finished.lookup n = some final ∨
      (t.remember h status).finished.lookup n = none ∧
        historySize ≤ (t.remember h status).finished.length := by
  rcases hn with hn | ⟨hn, hfull⟩
  · exact (lookup_remember hl hn).imp_right fun hdropped => ⟨hdropped.1, hdropped.2.1⟩
  · have hleft := length_dropOldest hl
    rw [List.length_cons] at hleft
    unfold remember
    dsimp only
    split
    · refine .inr ⟨?_, by omega⟩
      rcases lookup_dropOldest ((h.number, status) :: t.finished) n with hsame | hnone
      · exact hsame.trans hn
      · exact hnone
    · exact .inr ⟨hn, hfull.trans (Nat.le_succ _)⟩

/-- The runner with the runs that are still to be visited. -/
def awaiting (t : TransientRunner) (l : List TransientRun) : TransientRunner :=
  { t with runs := t.runs ++ l }

section

variable {runs : List TransientRun} {r r' : TransientRun} {s : Scene} {c : Cancellations}
  {final : TransientStatus}
  {turn : TransientRun → Scene → TransientRun × Scene × Option TransientStatus}

theorem Numbered.keep (ht : (t.awaiting (r :: runs)).Numbered) (hr : r'.handle = r.handle) :
    (({ t with runs := t.runs ++ [r'] } : TransientRunner).awaiting runs).Numbered := by
  have hmap : ((t.runs ++ [r']) ++ runs).map (·.handle) =
      (t.runs ++ r :: runs).map (·.handle) := by
    simp [hr]
  have hmem : ∀ k ∈ (t.runs ++ [r']) ++ runs, ∃ k' ∈ t.runs ++ r :: runs,
      k'.handle = k.handle := by
    intro k hk
    have hk : k.handle ∈ (t.runs ++ r :: runs).map (·.handle) :=
      hmap ▸ List.mem_map_of_mem hk
    exact List.mem_map.1 hk
  refine ⟨?_, fun k hk => ?_, fun f hf => ⟨(ht.finished f hf).1, fun k hk => ?_⟩, ht.once⟩
  · have hordered : ((t.runs ++ r :: runs).map (·.handle)).Pairwise
        fun a b => a.number < b.number := List.pairwise_map.2 ht.ordered
    rw [← hmap] at hordered
    have hkept := List.pairwise_map.1 hordered
    exact hkept
  · obtain ⟨k', hk', heq⟩ := hmem k hk
    exact heq ▸ ht.started k' hk'
  · obtain ⟨k', hk', heq⟩ := hmem k hk
    exact heq ▸ (ht.finished f hf).2 k' hk'

theorem Numbered.ne (ht : (t.awaiting (r :: runs)).Numbered) {k : TransientRun}
    (hk : k ∈ t.runs ++ runs) : r.handle.number ≠ k.handle.number := by
  obtain ⟨-, hrest, hcross⟩ := List.pairwise_append.1 ht.ordered
  rcases List.mem_append.1 hk with hk | hk
  · exact Nat.ne_of_gt (hcross k hk r List.mem_cons_self)
  · exact Nat.ne_of_lt ((List.pairwise_cons.1 hrest).1 k hk)

theorem Numbered.nodup_cons (ht : (t.awaiting (r :: runs)).Numbered) (status : TransientStatus) :
    (((r.handle.number, status) :: t.finished).map (·.1)).Nodup := by
  refine List.nodup_cons.2 ⟨fun hmem => ?_, ht.once⟩
  obtain ⟨f, hf, heq⟩ := List.mem_map.1 hmem
  exact (ht.finished f hf).2 r (List.mem_append_right _ List.mem_cons_self) heq

theorem mem_remember {f : Nat × TransientStatus} (h : f ∈ (t.remember r.handle status).finished) :
    f = (r.handle.number, status) ∨ f ∈ t.finished := by
  have hadded : f ∈ (r.handle.number, status) :: t.finished := by
    unfold remember at h
    dsimp only at h
    split at h
    · exact (dropOldest_sublist _).subset h
    · exact h
  exact List.mem_cons.1 hadded

theorem Numbered.finish (ht : (t.awaiting (r :: runs)).Numbered) (status : TransientStatus) :
    ((t.remember r.handle status).awaiting runs).Numbered := by
  have hsub : (t.runs ++ runs).Sublist (t.runs ++ r :: runs) :=
    List.Sublist.append_left (List.sublist_cons_self r runs) _
  refine ⟨ht.ordered.sublist hsub, fun k hk => ht.started k (hsub.subset hk), fun f hf => ?_, ?_⟩
  · rcases mem_remember hf with rfl | hf
    · exact ⟨ht.started r (List.mem_append_right _ List.mem_cons_self), fun k hk => ht.ne hk⟩
    · exact ⟨(ht.finished f hf).1, fun k hk => (ht.finished f hf).2 k (hsub.subset hk)⟩
  · have hnew := ht.nodup_cons status
    show ((if historySize < _ then dropOldest _ else _ : List _).map (·.1)).Nodup
    split
    · exact hnew.sublist ((dropOldest_sublist _).map _)
    · exact hnew

/-- What no turn of a run ends, neither if the run goes on nor if it is over, no visit of all runs
ends. -/
theorem visit_induction {I : TransientRunner → Scene → Prop}
    (stays : ∀ (t : TransientRunner) r rest s r' s', turn r s = (r', s', none) →
      I (t.awaiting (r :: rest)) s →
      I (({ t with runs := t.runs ++ [r'] } : TransientRunner).awaiting rest) s')
    (ends : ∀ (t : TransientRunner) r rest s r' s' status, turn r s = (r', s', some status) →
      I (t.awaiting (r :: rest)) s →
      I ((t.remember r'.handle status).awaiting rest)
        (s'.emit (.transientFinished r'.handle status)))
    (h : I (t.awaiting runs) s) : I (visit turn runs t s).1 (visit turn runs t s).2 := by
  induction runs generalizing t s with
  | nil =>
    have hnil : t.awaiting [] = t := by simp [awaiting]
    exact hnil ▸ h
  | cons r rest ih =>
    unfold visit
    cases hturn : turn r s with
    | mk r' x =>
      obtain ⟨s', _ | status⟩ := x
      · exact ih (stays t r rest s r' s' hturn h)
      · exact ih (ends t r rest s r' s' status hturn h)

theorem visit_numbered (hturn : ∀ r s, (turn r s).1.handle = r.handle) (s : Scene)
    (ht : (t.awaiting runs).Numbered) : (visit turn runs t s).1.Numbered := by
  refine visit_induction (I := fun t _ => t.Numbered) ?_ ?_ ht
  · intro t r rest s r' s' hr ht
    have hsame := hturn r s
    rw [hr] at hsame
    exact ht.keep hsame
  · intro t r rest s r' s' status hr ht
    have hsame := hturn r s
    rw [hr] at hsame
    rw [show r'.handle = r.handle from hsame]
    exact ht.finish status

/-- What is known of an ended run stays known when others end. -/
theorem visit_ended (hturn : ∀ r s, (turn r s).1.handle = r.handle) (s : Scene)
    (ht : (t.awaiting runs).Numbered) (he : (t.awaiting runs).Ended h final) :
    (visit turn runs t s).1.Ended h final := by
  refine (visit_induction (I := fun t _ => t.Numbered ∧ t.Ended h final) ?_ ?_ ⟨ht, he⟩).2
  · rintro t r rest s r' s' hr ⟨ht, he⟩
    have hsame := hturn r s
    rw [hr] at hsame
    refine ⟨ht.keep hsame, fun k hk => ?_, he.known⟩
    have hover := he.gone
    simp only [awaiting, List.mem_append, List.mem_cons, List.not_mem_nil, or_false] at hk hover
    rcases hk with (hk | rfl) | hk
    · exact hover k (.inl hk)
    · rw [show k.handle = r.handle from hsame]
      exact hover r (.inr (.inl rfl))
    · exact hover k (.inr (.inr hk))
  · rintro t r rest s r' s' status hr ⟨ht, he⟩
    have hsame := hturn r s
    rw [hr] at hsame
    rw [show r'.handle = r.handle from hsame]
    have hsub : (t.runs ++ rest).Sublist (t.runs ++ r :: rest) :=
      List.Sublist.append_left (List.sublist_cons_self r rest) _
    have hne : h ≠ r.handle :=
      Ne.symm (he.gone r (List.mem_append_right _ List.mem_cons_self))
    refine ⟨ht.finish status, fun k hk => he.gone k (hsub.subset hk), ?_⟩
    refine known_remember (ht.nodup_cons status) ?_
    rw [lookup_cons_of_ne hne]
    exact he.known

theorem Numbered.start (ht : t.Numbered) (d : Document) (scope : CancelScope) :
    (t.start d scope).2.Numbered := by
  refine ⟨?_, fun r hr => ?_, fun f hf => ⟨?_, fun r hr => ?_⟩, ht.once⟩
  · refine List.pairwise_append.2 ⟨ht.ordered, List.pairwise_singleton _ _, fun a ha b hb => ?_⟩
    cases List.mem_singleton.1 hb
    exact Nat.lt_succ_of_le (ht.started a ha)
  · rcases List.mem_append.1 hr with hr | hr
    · exact Nat.le_succ_of_le (ht.started r hr)
    · cases List.mem_singleton.1 hr
      exact Nat.le_refl _
  · exact Nat.le_succ_of_le (ht.finished f hf).1
  · rcases List.mem_append.1 hr with hr | hr
    · exact (ht.finished f hf).2 r hr
    · cases List.mem_singleton.1 hr
      exact Nat.ne_of_lt (Nat.lt_succ_of_le (ht.finished f hf).1)

theorem Numbered.takeStatus (ht : t.Numbered) (h : TransientHandle) :
    (t.takeStatus h).2.Numbered := by
  unfold TransientRunner.takeStatus
  split
  · exact ht
  · exact ⟨ht.ordered, ht.started, fun f hf => ht.finished f (List.mem_filter.1 hf).1,
      ht.once.sublist (List.filter_sublist.map _)⟩

/-- The turn in which cancelled runs end. -/
def reap (c : Cancellations) (r : TransientRun) (s : Scene) :
    TransientRun × Scene × Option TransientStatus :=
  if c.isCancelled r.scope then
    ({ r with active := none }, { s with services := r.abandon s.services }, some .cancelled)
  else (r, s, none)

theorem reap_same (c : Cancellations) (r : TransientRun) (s : Scene) :
    r.Same (reap c r s).1 := by
  unfold reap
  split <;> exact .refl r

/-- Runs that can be dropped end without a trace but for the event, and the others are left as they
are. -/
theorem visit_reap (hr : ∀ r ∈ runs, ∀ s, r.abandon s = s) (c : Cancellations) (t : TransientRunner)
    (s : Scene) :
    (visit (reap c) runs t s).1.runs = t.runs ++ runs.filter (!c.isCancelled ·.scope) ∧
      (visit (reap c) runs t s).2 = s.emitAll ((runs.filter (c.isCancelled ·.scope)).map
        fun r => .transientFinished r.handle .cancelled) := by
  induction runs generalizing t s with
  | nil => exact ⟨(List.append_nil _).symm, rfl⟩
  | cons r rest ih =>
    have hrest := fun k hk => hr k (List.mem_cons_of_mem r hk)
    unfold visit reap
    cases hc : c.isCancelled r.scope with
    | true =>
      rw [if_pos rfl, List.filter_cons_of_neg (by simp [hc]),
        List.filter_cons_of_pos (by simp [hc])]
      dsimp only
      rw [hr r List.mem_cons_self]
      obtain ⟨hruns, hscene⟩ := ih hrest (t.remember r.handle .cancelled)
        (s.emit (.transientFinished r.handle .cancelled))
      refine ⟨hruns, hscene.trans ?_⟩
      unfold Scene.emitAll Scene.emit
      simp
    | false =>
      rw [if_neg Bool.false_ne_true, List.filter_cons_of_pos (by simp [hc]),
        List.filter_cons_of_neg (by simp [hc])]
      obtain ⟨hruns, hscene⟩ := ih hrest { t with runs := t.runs ++ [r] } s
      exact ⟨hruns.trans (List.append_assoc _ _ _), hscene⟩

theorem visit_reap_ended (s : Scene) (ht : (t.awaiting runs).Numbered) (hr : r ∈ runs)
    (hc : c.isCancelled r.scope = true) :
    (visit (reap c) runs t s).1.Ended r.handle .cancelled := by
  have hturn : ∀ r s, (reap c r s).1.handle = r.handle := fun r s => (reap_same c r s).1
  induction runs generalizing t s with
  | nil => cases hr
  | cons k rest ih =>
    by_cases hk : c.isCancelled k.scope = true
    · unfold visit reap
      rw [if_pos hk]
      dsimp only
      rcases List.mem_cons.1 hr with rfl | hr
      · refine visit_ended hturn _ (ht.finish _) ⟨fun k hk => ?_, ?_⟩
        · exact fun heq => ht.ne hk (congrArg TransientHandle.number heq.symm)
        · refine known_remember (ht.nodup_cons _) (.inl ?_)
          rw [List.lookup_cons, beq_self_eq_true]
      · exact ih _ (ht.finish _) hr
    · unfold visit reap
      rw [if_neg hk]
      rcases List.mem_cons.1 hr with rfl | hr
      · exact absurd hc hk
      · exact ih s (ht.keep rfl) hr

end

end TransientRunner

end Playhead
