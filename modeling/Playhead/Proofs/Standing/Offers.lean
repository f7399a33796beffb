import Playhead.Proofs.Standing.Counting
import Playhead.Proofs.Standing.Steady

/-!
A script whose groups of choices are closed presents its options before it goes on.

Whether options are presented after a command depends on the name of the next command alone. So a
group is closed if the command after each `choice` is there and, when it is a `choice` too, runs
whatever the variables are.
-/

namespace Playhead

/-- Whether a command has no condition on it. -/
def Command.isFree (c : Command) : Bool :=
  c.condition matches .ok none

/-- Whether every `choice` is followed by a command, one without a condition if it is a `choice`. -/
def Document.closesGroups (d : Document) : Bool :=
  (List.range d.size).all fun i =>
    ((d.command? i).map (·.name)) ≠ some "choice" ||
      (d.command? (i + 1)).any fun next => next.name ≠ "choice" || next.isFree

theorem Command.condition_of_isFree {c : Command} (h : c.isFree = true) :
    c.condition = .ok none := by
  unfold isFree at h
  split at h
  · assumption
  · cases h

theorem Document.next_of_closesGroups {d : Document} (hd : d.closesGroups = true) {i : Nat}
    {c : Command} (hc : d.command? i = some c) (hn : c.name = "choice") :
    ∃ next, d.command? (i + 1) = some next ∧
      (next.name = "choice" → next.condition = .ok none) := by
  have hi := List.all_eq_true.1 hd i
    (List.mem_range.2 (Array.getElem?_eq_some_iff.1 hc).1)
  rw [hc, Option.map_some, hn] at hi
  obtain ⟨next, hnext, hfree⟩ := (Option.any_eq_true _ _).1 (by simpa using hi)
  refine ⟨next, hnext, fun hn' => Command.condition_of_isFree ?_⟩
  simpa [hn'] using hfree

/-- The start of another command than `choice`, or the end of the script. -/
def Note.GoesOn : Note → Prop
  | .event (.commandExecuted _ name) => name ≠ "choice"
  | .event (.stopped .endOfScript) => True
  | _ => False

def Event.presented? : Event → Option (List ChoiceOption)
  | .choicePresented options => some options
  | _ => none

namespace Standing

/-- The options that notes report as presented, one list for each time. -/
def presented (l : List Note) : List (List ChoiceOption) :=
  (l.filterMap Note.event?).filterMap Event.presented?

/-- The services after the last command that notes report as completed. -/
def servicesAfter (s : ServiceSet) (l : List Note) : ServiceSet :=
  (l.filterMap Note.after?).getLast?.getD s

/-- No option is pending, or the newest presentation lists all that are. -/
def Settled (l : List Note) (s : ServiceSet) : Prop :=
  s.pendingChoices = [] ∨ (presented l).getLast? = some s.pendingChoices

/-- Options are presented before the story goes on, where `s` are the services it begins with. -/
def Offers (s : ServiceSet) (l : List Note) : Prop :=
  ∀ l₁ n l₂, l = l₁ ++ n :: l₂ → n.GoesOn → Settled l₁ (servicesAfter s l₁)

/-- At a `choice` that runs whatever the variables are. -/
def AtChoice (s : Standing) : Prop :=
  ∃ d i c, s.document = some d ∧ s.index = some i ∧ d.command? i = some c ∧ c.name = "choice" ∧
    c.condition = .ok none

/-- What every step keeps: the options are presented already, or another `choice` comes before they
are. -/
structure Offering (s₀ : ServiceSet) (l : List Note) (s : Standing) : Prop where
  offers : Offers s₀ l
  services : servicesAfter s₀ l = s.services
  next : Settled l s.services ∨ s.AtChoice

variable {w : Shelf} {s t : Standing} {l m : List Note} {s₀ : ServiceSet}

theorem presented_append (l m : List Note) : presented (l ++ m) = presented l ++ presented m := by
  unfold presented
  rw [List.filterMap_append, List.filterMap_append]

theorem servicesAfter_append (s : ServiceSet) (l m : List Note) :
    servicesAfter s (l ++ m) = servicesAfter (servicesAfter s l) m := by
  unfold servicesAfter
  rw [List.filterMap_append, List.getLast?_append]
  cases (m.filterMap Note.after?).getLast? <;> rfl

theorem Settled.append (h : Settled l s.services) (hm : presented m = []) :
    Settled (l ++ m) s.services := by
  unfold Settled
  rw [presented_append, hm, List.append_nil]
  exact h

theorem Offers.append (hl : Offers s₀ l)
    (hm : ∀ m₁ n m₂, m = m₁ ++ n :: m₂ → n.GoesOn →
      Settled (l ++ m₁) (servicesAfter s₀ (l ++ m₁))) : Offers s₀ (l ++ m) := by
  intro l₁ n l₂ heq hn
  rcases List.append_eq_append_iff.1 heq with ⟨x, rfl, hx⟩ | ⟨x, hx, hy⟩
  · exact hm x n l₂ hx hn
  · cases x with
    | nil =>
      rw [List.append_nil] at hx
      rw [List.nil_append] at hy
      have h := hm [] n l₂ hy.symm hn
      rwa [List.append_nil, hx] at h
    | cons y x =>
      rw [List.cons_append] at hy
      obtain ⟨rfl, -⟩ := List.cons.inj hy
      exact hl l₁ n x hx hn

/-- Notes that tell of nothing that goes on add nothing to present. -/
theorem Offers.quiet (hl : Offers s₀ l) (hm : ∀ n ∈ m, ¬n.GoesOn) : Offers s₀ (l ++ m) :=
  hl.append fun m₁ n m₂ heq hn => absurd hn (hm n (by rw [heq]; simp))

section

variable {d : Document} {i : Nat} {c : Command}

theorem addsChoice_eq (hd : d.Staged w.registry) (hc : d.command? i = some c) :
    Playback.addsChoice w.registry d i = decide (c.name = "choice") := by
  obtain ⟨k, hk, hname, -⟩ := hd.handler hc
  unfold Playback.addsChoice
  simp only [hc, Option.bind_some, hk, hname]

/-- A `choice` without a condition runs. -/
theorem entry_choice (hw : w.Sound) (hd : d.Staged w.registry) (hc : d.command? i = some c)
    (hn : c.name = "choice") (hcond : c.condition = .ok none) (arrived : Bool)
    (services : ServiceSet) : d.entry i arrived services = .run := by
  obtain ⟨k, hk, -, hrole⟩ := hd.handler hc
  have hbuiltin : Builtin.choice ∈ Builtin.handlers := by simp [Builtin.handlers]
  have hk' := hw.registry.builtin _ hbuiltin
  rw [show Builtin.choice.name = c.name from hn.symm, hk] at hk'
  cases hk'
  have hnone : c.role = .none := hrole.symm
  unfold Document.entry Command.isWanted
  rw [hc]
  simp [hnone, hcond]

/-- What a `choice` ends with, whether it registers its option or faults. -/
theorem flow_choice (c : Command) (hrole : c.role = .none) (spot : Spot) (services : ServiceSet) :
    (Builtin.choice.outcome c spot services).1.flow = .advance := by
  have hends := Builtin.ends_outcome (h := Builtin.choice) (by simp [Builtin.handlers]) c spot
    services
  generalize Builtin.choice.outcome c spot services = r at hends
  obtain ⟨done, after⟩ := r
  generalize hk : Builtin.choice = k at hends
  cases hends with
  | fault => rw [hrole]
  | _ => first | rfl | (exact absurd (congrArg Handler.name hk) (by decide))

end

/-- Presentations in an aftermath list all that is pending. -/
theorem presented_aftermath (registry : Registry) (done : Completion) (d : Document) (i : Nat)
    (s : ServiceSet) : presented (aftermath registry done d i s) = [] ∨
      presented (aftermath registry done d i s) = [s.pendingChoices] := by
  rcases aftermath_cases registry done d i s with h | ⟨why, h, -⟩ | h
  · exact .inl (by rw [h]; rfl)
  · exact .inl (by rw [h]; rfl)
  · exact .inr (by rw [h]; rfl)

theorem choicesPending_eq_false_iff {s : ServiceSet} :
    s.choicesPending = false ↔ s.pendingChoices = [] := by
  unfold ServiceSet.choicesPending Choices.hasPending ServiceSet.pendingChoices
  cases s.choices <;> simp

theorem presented_after (l : List Note) (s : ServiceSet) (m : List Note) :
    presented (l ++ .after s :: m) = presented l ++ presented m :=
  presented_append l (.after s :: m)

theorem servicesAfter_aftermath (s₀ : ServiceSet) (l : List Note) (registry : Registry)
    (done : Completion) (d : Document) (i : Nat) (s : ServiceSet) :
    servicesAfter s₀ (l ++ .after s :: aftermath registry done d i s) = s := by
  rw [servicesAfter_append]
  unfold servicesAfter
  rw [List.filterMap_cons, afters_aftermath]
  rfl

/-- Inside a script, options that are pending after a command are presented unless a `choice` is
next. -/
theorem settled_aftermath {registry : Registry} {d : Document} {i : Nat} {done : Completion}
    (after : ServiceSet) (hflow : done.flow ≠ .stop) (hi : i < d.size)
    (hadds : Playback.addsChoice registry d i = false) (l : List Note) :
    Settled (l ++ .after after :: aftermath registry done d i after) after := by
  cases hp : after.choicesPending with
  | false => exact .inl (choicesPending_eq_false_iff.1 hp)
  | true =>
    right
    unfold aftermath
    rw [if_neg (Nat.not_le.2 hi), if_neg hflow, hadds, hp, if_pos (by rfl), presented_after]
    simp [presented, Note.event?, Event.presented?]

/-- What was presented before a command that registers nothing is still all that is pending. -/
theorem Settled.after {before after : ServiceSet} (h : Settled l before)
    (hp : after.pendingChoices = before.pendingChoices) (registry : Registry) (done : Completion)
    (d : Document) (i : Nat) :
    Settled (l ++ .after after :: aftermath registry done d i after) after := by
  unfold Settled at h ⊢
  rw [presented_after, hp]
  rcases presented_aftermath registry done d i after with hnone | hone
  · rwa [hnone, List.append_nil]
  · rw [hone, hp]
    exact .inr (List.getLast?_concat)

section

variable {d : Document} {i : Nat} {c : Command}

theorem Offering.settled (h : Offering s₀ m s) (hd : s.document = some d)
    (hi : s.index = some i) (hc : d.command? i = some c) (hn : c.name ≠ "choice") :
    Settled m s.services := by
  refine h.next.resolve_right ?_
  rintro ⟨d', i', c', hd', hi', hc', hn', -⟩
  cases hd.symm.trans hd'
  cases hi.symm.trans hi'
  cases hc.symm.trans hc'
  exact hn hn'

theorem Offering.start (h : Offering s₀ m s) (hd : s.document = some d) (hi : s.index = some i)
    (hc : d.command? i = some c) : Offering s₀ (m ++ (s.start d i c).1) (s.start d i c).2 where
  offers := by
    refine h.offers.append fun m₁ n m₂ heq hn => ?_
    rcases List.singleton_eq_append_iff.1 heq with ⟨rfl, hn'⟩ | ⟨-, hn'⟩
    · cases hn'
      rw [List.append_nil, h.services]
      exact h.settled hd hi hc hn
    · cases hn'
  services := by
    rw [servicesAfter_append, h.services]
    rfl
  next := h.next.imp (·.append rfl) id

theorem Offering.pass (hw : w.Sound) (hs : d.Staged w.registry) (h : Offering s₀ m s)
    (hd : s.document = some d) (hi : s.index = some i) (hc : d.command? i = some c) {j : Nat}
    (he : d.entry i s.arrived s.services = .skip j ∨
      d.entry i s.arrived s.services = .run ∧ w.registry.get? c.name = none ∧ j = i + 1) :
    Offering s₀ (m ++ (s.pass d j).1) (s.pass d j).2 := by
  have hsettled : Settled m s.services := by
    refine h.next.resolve_right ?_
    rintro ⟨d', i', c', hd', hi', hc', hn, hcond⟩
    cases hd.symm.trans hd'
    cases hi.symm.trans hi'
    cases hc.symm.trans hc'
    rcases he with he | ⟨-, hr, -⟩
    · rw [entry_choice hw hs hc hn hcond] at he
      cases he
    · obtain ⟨k, hk, -⟩ := hs.handler hc
      rw [hr] at hk
      cases hk
  have hnotes : (s.pass d j).1 = [] ∨ (s.pass d j).1 = [.event (.stopped .endOfScript)] := by
    unfold Standing.pass
    dsimp only
    split
    · exact .inl rfl
    · exact .inr rfl
  refine ⟨h.offers.append fun m₁ n m₂ heq hn => ?_, ?_, .inl (hsettled.append ?_)⟩
  · rcases hnotes with hnil | hone
    · rw [hnil] at heq
      simp at heq
    · rw [hone] at heq
      rcases List.singleton_eq_append_iff.1 heq with ⟨rfl, -⟩ | ⟨-, hn'⟩
      · rw [List.append_nil, h.services]
        exact hsettled
      · cases hn'
  · rw [servicesAfter_append, h.services]
    rcases hnotes with hnil | hone
    · rw [hnil]
      rfl
    · rw [hone]
      rfl
  · rcases hnotes with hnil | hone
    · rw [hnil]
      rfl
    · rw [hone]
      rfl

/-- A `choice` that completes: its group goes on with the next one, or its options are presented. -/
theorem Offering.choose (hs : d.Staged w.registry) (hclosed : d.closesGroups = true)
    (h : Offering s₀ m s) (hc : d.command? i = some c) (hn : c.name = "choice")
    {done : Completion} (hflow : done.flow = .advance) (after : ServiceSet) :
    Offering s₀ (m ++ (s.finish w d i done after).1) (s.finish w d i done after).2 := by
  obtain ⟨next, hnext, hfree⟩ := d.next_of_closesGroups hclosed hc hn
  have hlt : i + 1 < d.size := (Array.getElem?_eq_some_iff.1 hnext).1
  have hstop : done.flow ≠ .stop := by
    rw [hflow]
    exact nofun
  have hfollow : w.follow d i done.flow = .ok (d, i + 1) := by
    rw [hflow]
    rfl
  unfold finish
  dsimp only
  rw [hfollow]
  dsimp only
  refine ⟨h.offers.quiet fun n hmem => ?_, servicesAfter_aftermath _ _ _ _ _ _ _, ?_⟩
  · unfold aftermath at hmem
    rw [if_neg (Nat.not_le.2 hlt), if_neg hstop] at hmem
    rcases List.mem_cons.1 hmem with rfl | hmem
    · exact id
    · split at hmem
      · cases List.mem_singleton.1 hmem
        exact id
      · cases hmem
  · by_cases hname : next.name = "choice"
    · exact .inr ⟨d, i + 1, next, rfl, if_pos hlt, hnext, hname, hfree hname⟩
    · refine .inl (settled_aftermath after hstop hlt ?_ m)
      rw [addsChoice_eq hs hnext]
      exact decide_eq_false hname

/-- Another command that completes registers nothing. -/
theorem Offering.complete (h : Offering s₀ m s) (hd : s.document = some d)
    (hi : s.index = some i) (hc : d.command? i = some c) (hn : c.name ≠ "choice")
    (done : Completion) {after : ServiceSet}
    (hp : after.pendingChoices = s.services.pendingChoices) :
    Offering s₀ (m ++ (s.finish w d i done after).1) (s.finish w d i done after).2 := by
  have hsettled := h.settled hd hi hc hn
  have hkept : Settled (m ++ [.after after]) after := by
    unfold Settled at hsettled ⊢
    rw [presented_after, hp]
    exact (List.append_nil (presented m)).symm ▸ hsettled
  have hservices : servicesAfter s₀ (m ++ [.after after]) = after := by
    rw [servicesAfter_append]
    rfl
  have hafter : Offers s₀ (m ++ [.after after]) := by
    refine h.offers.quiet fun n hmem => ?_
    cases List.mem_singleton.1 hmem
    exact id
  unfold finish
  dsimp only
  cases w.follow d i done.flow with
  | error e =>
    refine ⟨?_, ?_, .inl ?_⟩
    · rw [List.append_cons]
      refine hafter.quiet fun n hmem => ?_
      cases List.mem_singleton.1 hmem
      exact id
    · rw [servicesAfter_append]
      rfl
    · show Settled _ after
      unfold Settled at hkept ⊢
      rw [presented_after] at hkept ⊢
      exact hkept
  | ok r =>
    obtain ⟨next, j⟩ := r
    refine ⟨?_, servicesAfter_aftermath _ _ _ _ _ _ _, .inl (hsettled.after hp _ _ _ _)⟩
    rw [List.append_cons]
    refine hafter.append fun m₁ n m₂ heq hgoes => ?_
    have hfirst : m₁ = [] := by
      rcases aftermath_cases w.registry done next j after with h | ⟨why, h, -⟩ | h <;>
        rw [h] at heq
      · simp at heq
      · exact (List.singleton_eq_append_iff.1 heq).elim (·.1) fun h => by cases h.2
      · exact (List.singleton_eq_append_iff.1 heq).elim (·.1) fun h => by cases h.2
    rw [hfirst, List.append_nil, hservices]
    exact hkept

end

/-- What one step keeps in a script whose groups are closed. -/
theorem Moves.offering (hw : w.Sound) (h : Moves w s l t) (hs : s.Placed w)
    (hclosed : ∀ d, s.document = some d → d.closesGroups = true)
    (hc : ∀ name, s.Current name → name ∈ Builtin.names) (hm : Offering s₀ m s) :
    Offering s₀ (m ++ l) t := by
  cases h with
  | start hd hi hcmd hb he hr => exact hm.start hd hi hcmd
  | pass hd hi hcmd hb he =>
    exact hm.pass hw (hw.staged _ _ (hs _ _ hd hi).1).2 hd hi hcmd he
  | @complete d i c k hd hi hcmd hb hr =>
    have hstaged := (hw.staged _ _ (hs d i hd hi).1).2
    have hname := hc c.name ⟨hb, d, i, c, hd, hi, hcmd, rfl⟩
    have hmem := hw.mem_handlers hname hr
    have heq := hw.name_eq hname hr
    by_cases hn : c.name = "choice"
    · have hbuiltin : Builtin.choice ∈ Builtin.handlers := by simp [Builtin.handlers]
      have hk : k = Builtin.choice := by
        have hget := hw.registry.builtin _ hbuiltin
        rw [show Builtin.choice.name = c.name from hn.symm, hr] at hget
        exact Option.some.inj hget
      obtain ⟨k', hk', -, hrole⟩ := hstaged.handler hcmd
      rw [hr, hk] at hk'
      cases hk'
      rw [hk]
      exact hm.choose hstaged (hclosed d hd) hcmd hn
        (flow_choice c hrole.symm ⟨d.name, i⟩ s.services) _
    · refine hm.complete hd hi hcmd hn _ ?_
      have hne : k ≠ Builtin.choice := by
        rintro rfl
        exact hn heq.symm
      unfold ServiceSet.pendingChoices
      rw [Builtin.choices_outcome hmem hne]

/-- Options are presented before the story goes on, in scripts whose groups are closed. -/
theorem Leads.offers (hw : w.Sound) (h : s.Leads w l t) (hs : s.Domestic w)
    (hl : Starts l (· ∈ Builtin.names)) (hc : ∀ name, s.Current name → name ∈ Builtin.names)
    (hclosed : ∀ l₁ l₂ u d, l = l₁ ++ l₂ → s.Leads w l₁ u → u.document = some d →
      d.closesGroups = true)
    (hpending : s.services.pendingChoices = []) : Offers s.services l := by
  suffices hkeeps : ∀ {u : Standing} {m : List Note}, s.Leads w m u → Offering s.services m u →
      ∀ {k : List Note}, l = m ++ k → u.Leads w k t → Offering s.services l t by
    refine (hkeeps (.refl s) ⟨?_, rfl, .inl (.inl hpending)⟩ (List.nil_append l).symm h).offers
    intro l₁ n l₂ heq
    simp at heq
  intro u m hm hI k hk hu
  induction hu generalizing m with
  | refl u =>
    rw [hk, List.append_nil]
    exact hI
  | @step u v t k₁ k₂ hnext _ ih =>
    have hstarts : Starts m (· ∈ Builtin.names) := (starts_append.1 (hk ▸ hl)).1
    have hcur := (hm.keeps (m := []) (P := (· ∈ Builtin.names)) (I := fun _ _ => True)
      (fun _ _ _ _ _ _ _ => trivial) hstarts hc trivial).2
    have hstep := (moves_of_next hnext).offering hw (hm.domestic hw hstarts hc hs).1.placed
      (fun d hd => hclosed m (k₁ ++ k₂) u d hk hm hd) hcur hI
    exact ih h (hm.trans (.one hnext)) hstep (by rw [hk, List.append_assoc])

end Standing

end Playhead
