import Playhead.Engine.Rewind
import Playhead.Proofs.Engine.Calm
import Playhead.Proofs.Engine.Drive
import Playhead.Proofs.Motion.Forward
import Playhead.Proofs.Services.Engine

/-!
Rewinding to a command further on comes to it as playing on does.
-/

namespace Playhead

/-- The index of a place of a script. -/
def RewindTarget.index? (d : Document) : RewindTarget → Option Nat
  | .line n => d.indexForLine? n
  | .label name => d.labelIndex? name

namespace Engine

variable {e e' : Engine} {l : List Input}

/-- The states of playback that an input passes through. -/
def takeTrace (e : Engine) : Input → List Playback
  | .tick delta => e.playback.tickTrace e.env delta
  | i => [(e.take i).playback]

/-- The states of playback that driving an engine passes through, oldest first. -/
def moments : Engine → List Input → List Playback
  | _, [] => []
  | e, i :: rest => e.takeTrace i ++ (e.take i).moments rest

/-- The same records of the game and of all games, the same count of commands and the same
history. -/
structure Matches (e : Engine) (p : Playback) : Prop where
  game : StateMap.collect e.services .game = StateMap.collect p.services .game
  global : StateMap.collect e.services .global = StateMap.collect p.services .global
  played : e.cursor.played = p.cursor.played
  stack : e.stack = p.manager.stack

theorem moments_append (e : Engine) (l m : List Input) :
    e.moments (l ++ m) = e.moments l ++ (e.takeAll l).moments m := by
  induction l generalizing e with
  | nil => rfl
  | cons i rest ih =>
    show e.takeTrace i ++ (e.take i).moments (rest ++ m) = _
    rw [ih, ← List.append_assoc]
    rfl

/-- Driving an engine goes along its moments. -/
theorem takeAll_path (ha : e.transients.runs = []) (he : Playback.Steps e.env e.playback)
    (hl : ∀ i ∈ l, i.IsPlain) :
    Playback.Path e.env e.playback (e.moments l) (e.takeAll l).playback := by
  induction l generalizing e with
  | nil => exact .nil _
  | cons i rest ih =>
    have hi := hl i List.mem_cons_self
    have hrest : ∀ j ∈ rest, j.IsPlain := fun j hj => hl j (List.mem_cons_of_mem _ hj)
    obtain ⟨p, hp⟩ := take_alone ha hi.not_isSelect
    have hstep : Playback.Path e.env e.playback (e.takeTrace i) (e.take i).playback := by
      cases i with
      | tick delta =>
        rw [show e.take (.tick delta) = _ from tick_alone ha delta]
        exact Playback.tick_path delta he
      | goOn => exact .one .goOn
      | _ => exact absurd hi id
    have hkeeps := hstep.keeps (I := Playback.Steps e.env)
      (fun p q h hp => hp.turns (w := .none) (h.turns hp.registry hp.read)) he
    refine hstep.append ?_
    show Playback.Path e.env _ ((e.take i).moments rest) ((e.take i).takeAll rest).playback
    rw [hp] at hkeeps ⊢
    exact ih (e := { e with playback := p }) ha hkeeps hrest

/-- What the commands of a registry are and stay as long as they are in flight, the command in
flight is in every state that can come about. -/
theorem Reachable.starts {P : Task → Prop} (h : e.Reachable) (hr : e.registry.Starts P)
    (hP : ∀ t u, t.Stems u → P t → P u) : ∀ a, e.player.active = some a → P a.task := by
  refine (h.keeps (I := fun registry b => registry.Starts P → ∀ a, b.active = some a → P a.task)
    (fun u hu _ a ha => ?_) fun registry b c hturn hb hr => ?_).2 hr
  · cases hu.active.symm.trans ha
  · exact Bearings.Turns.starts (.one hturn) hr hP (hb hr)

/-- A rewind that gets to a command further on has run forward to it. -/
theorem rewindTo_ahead {target : RewindTarget} {d : Document} {i index : Nat}
    (hd : e.player.document = some d) (hi : e.cursor.index = some i)
    (ht : target.index? d = some index) (hlt : i < index)
    (h : e.rewindTo target = (e', .ok true)) :
    ∃ p, e.playback.fastForward e.env index = (p, .ok true) ∧ e' = { e with playback := p } := by
  have hindex : e.rewindToIndex d index = (e', .ok true) := by
    unfold rewindTo at h
    rw [hd] at h
    cases target with
    | line n =>
      rw [RewindTarget.index?] at ht
      simpa only [ht] using h
    | label name =>
      rw [RewindTarget.index?] at ht
      simpa only [ht] using h
  unfold rewindToIndex at hindex
  rw [hi] at hindex
  dsimp only [Option.getD_some] at hindex
  split at hindex
  · rename_i hsame
    have heq := of_decide_eq_true (Bool.and_eq_true_iff.1 hsame).1
    omega
  · split at hindex
    · cases (Prod.mk.inj hindex).2
    · unfold rewindWithin at hindex
      rw [if_pos hlt] at hindex
      unfold playForward at hindex
      generalize hr : e.playback.fastForward e.env index = r at hindex
      obtain ⟨p, err | (_ | _)⟩ := r
      · cases (Prod.mk.inj hindex).2
      · dsimp only [Except.mapError] at hindex
        split at hindex
        · cases (Prod.mk.inj hindex).2
        · split at hindex <;> cases (Prod.mk.inj hindex).2
      · exact ⟨p, rfl, (Prod.mk.inj hindex).1.symm⟩

/-- An engine whose playback is plain and that nothing but main playback changes. -/
structure Walks (e : Engine) : Prop where
  plain : Playback.Plain e.env e.playback
  alone : e.transients.runs = []
  budget : 0 < e.config.player.maxCommands

theorem Walks.withPlayback {p : Playback} (he : e.Walks) (hp : Playback.Plain e.env p) :
    ({ e with playback := p } : Engine).Walks :=
  ⟨hp, he.alone, he.budget⟩

/-- What continuing an input wait and then letting time pass comes to: playback waits for a
selection, or it makes the next state at once. -/
theorem exists_round (he : e.Walks) (hrun : e.playback.player.isRunning = true) :
    (e.take .goOn).cursor.waiting = true ∧ (e.take .goOn).playback.choicesPending = true ∨
      ∃ delta p q l r, e.moments [.goOn, .tick delta] = p :: q :: l ∧
        e.takeAll [.goOn, .tick delta] = { e with playback := r } ∧
        p.bare = e.playback.bare ∧ q.bare = e.playback.bare.next e.env ∧
        Playback.Plain e.env q ∧ Playback.Path e.env q l r := by
  obtain ⟨p, hp⟩ : ∃ p, p = e.playback.continueInput := ⟨_, rfl⟩
  have hgo : e.take .goOn = { e with playback := p } := by rw [hp]; rfl
  have hbare : p.bare = e.playback.bare := hp ▸ e.playback.bare_continueInput
  rw [hgo]
  cases hw : p.cursor.waiting with
  | true =>
    refine .inl ⟨hw, ?_⟩
    -- An input wait that continuing does not end is one for a selection.
    have hsame : p.choicesPending = e.playback.choicesPending := by
      rw [hp]
      exact congrArg ServiceSet.choicesPending e.playback.services_continueInput
    show p.choicesPending = true
    rw [hsame]
    rw [hp] at hw
    unfold Playback.continueInput at hw
    split at hw
    · rename_i hstays
      rw [hw] at hstays
      exact hstays
    · cases hw
  | false =>
    right
    have hplain : Playback.Plain e.env p := hp ▸ he.plain.step .goOn
    have hrunp : p.player.isRunning = true := by
      have h : p.bare.player.isRunning = true := by rw [hbare]; exact hrun
      exact h
    obtain ⟨delta, hdelta⟩ : ∃ delta, ∀ a, p.player.active = some a → a.left ≤ delta := by
      cases p.player.active with
      | none => exact ⟨0, nofun⟩
      | some a => exact ⟨a.left, fun b hb => Option.some.inj hb ▸ Nat.le_refl _⟩
    obtain ⟨q, l, htrace, hq⟩ := Playback.tickTrace_next hplain hrunp hw he.budget hdelta
    have hpath := Playback.tick_path delta hplain.toSteps
    rw [htrace] at hpath
    refine ⟨delta, p, q, l, (p.tick e.env delta).1, ?_, ?_, hbare, hbare ▸ hq, ?_⟩
    · show [(e.take .goOn).playback] ++ ((e.take .goOn).takeTrace (.tick delta) ++ []) = _
      rw [hgo, List.append_nil]
      exact congrArg (p :: ·) htrace
    · show (e.take .goOn).take (.tick delta) = _
      rw [hgo]
      exact tick_alone (e := { e with playback := p }) he.alone delta
    · cases hpath with
      | cons hs tail => exact ⟨hplain.step hs, tail⟩

/-- Playing on comes to the command at a spot that lies ahead, or it waits for a selection. -/
theorem exists_moment {spot : Spot} {b p : Playback} {m k : Nat} (he : e.Walks)
    (hm : Playback.Nears e.env spot b m p) (hp : p.faces spot = true)
    (hk : Playback.Nears e.env spot b k e.playback) (hnot : e.playback.faces spot = false) :
    ∃ l : List Input, (∀ i ∈ l, i.IsPlain) ∧
      ((∃ q, (e.moments l).find? (·.faces spot) = some q) ∨
        (e.takeAll l).cursor.waiting = true ∧ (e.takeAll l).playback.choicesPending = true) := by
  induction hn : m - k using Nat.strong_induction_on generalizing e k with
  | _ n ih =>
    have hkm := hk.lt hnot hm hp
    have hrun : e.playback.player.isRunning = true := by
      have h := (hm.2 k hkm).2
      rw [← hk.1] at h
      exact h
    rcases exists_round he hrun with hw |
      ⟨delta, p₁, q, l, r, hmoments, hall, hp₁, hq, hplain, hpath⟩
    · exact ⟨[.goOn], fun i hi => List.mem_singleton.1 hi ▸ trivial, .inr hw⟩
    have hround : ∀ i ∈ [Input.goOn, .tick delta], i.IsPlain := by
      simp [Input.IsPlain]
    cases hfound : (e.moments [.goOn, .tick delta]).find? (·.faces spot) with
    | some u => exact ⟨_, hround, .inl ⟨u, hfound⟩⟩
    | none =>
      have hnone := List.find?_eq_none.1 hfound
      rw [hmoments] at hnone
      have hnext : Playback.Nears e.env spot b (k + 1) q := hk.next hnot hrun hq
      have hqf : q.faces spot = false := Bool.eq_false_iff.2 (hnone q (by simp))
      obtain ⟨hrf, j, hj, hnears⟩ := (hpath.nears hplain hnext hqf).2
        (List.find?_eq_none.2 fun x hx => hnone x (by simp [hx]))
      have hplain' : Playback.Plain e.env r := hpath.keeps (fun _ _ h hp => hp.step h) hplain
      obtain ⟨l', hl', hend⟩ := ih (m - j) (by omega) (he.withPlayback hplain') hm hnears hrf rfl
      refine ⟨_ ++ l', fun i hi => (List.mem_append.1 hi).elim (hround i) (hl' i), ?_⟩
      rw [moments_append, takeAll_append, hall, List.find?_append, hfound, Option.none_or]
      exact hend

theorem matches_of_bare {p : Playback} (h : e.playback.bare = p.bare) : e.Matches p := by
  have hservices : e.playback.bare.services = p.bare.services := by rw [h]
  have hservices : e.services = p.services := hservices
  have hplayed : e.playback.bare.cursor.played = p.bare.cursor.played := by rw [h]
  have hstack : e.playback.bare.manager.stack = p.bare.manager.stack := by rw [h]
  exact ⟨by rw [hservices], by rw [hservices], hplayed, hstack⟩

/-- A rewind that gets to a command further on leaves what playing on with skipping off leaves when
it first comes to that command. Playing on comes to it unless it waits for a selection on the way,
with options pending that the rewind has run past. -/
theorem rewind_agrees {target : RewindTarget} {d : Document} {i index : Nat} (he : e.Reachable)
    (hs : e.registry.Starts Task.Steady) (halone : e.transients.runs = [])
    (hd : e.player.document = some d) (hi : e.cursor.index = some i)
    (ht : target.index? d = some index) (hlt : i < index)
    (h : e.rewindTo target = (e', .ok true)) :
    let spot : Spot := ⟨e.cursor.script, index⟩
    let e₀ := e.setSkip false
    e'.cursor.spot? = some spot ∧
      (∀ l : List Input, (∀ i ∈ l, i.IsPlain) →
        ∀ p, (e₀.moments l).find? (·.faces spot) = some p → e'.Matches p) ∧
      ∃ l : List Input, (∀ i ∈ l, i.IsPlain) ∧
        ((∃ p, (e₀.moments l).find? (·.faces spot) = some p) ∨
          (e₀.takeAll l).cursor.waiting = true ∧ (e₀.takeAll l).playback.choicesPending = true) := by
  intro spot e₀
  obtain ⟨p, hp, rfl⟩ := rewindTo_ahead hd hi ht hlt h
  have hactive := he.starts hs fun t u hu ht => ht.stems hu
  obtain ⟨hpaced, hbudget, hfaces, m, hm⟩ :=
    Playback.fastForward_along he.steps hs hactive hd hi hlt hp
  rw [← (he.current.script d hd).1] at hfaces hm
  have hfaces : p.faces spot = true := hfaces
  have hbare : e₀.playback.bare = e.playback.bare := e.playback.bare_setSkip false
  have hback : e₀.playback.backdrop = e.playback.backdrop :=
    (Playback.Stays.setSkip e.playback false).backdrop
  have hwalks : e₀.Walks := by
    refine ⟨⟨⟨he.steps.turns (w := .none) (.of_eq (e.playback.bearings_setSkip false)), ?_, hs, ?_⟩,
      ?_⟩, halone, hbudget⟩
    · exact (congrArg (fun b : Playback.Backdrop => b.scopes.isCancelled b.scope) hback).trans
        hpaced.live
    · intro a ha
      exact hactive a ((Playback.Stays.setSkip e.playback false).active.symm.trans ha)
    · exact (congrArg Playback.Backdrop.fastForward hback).trans he.calm
  have hstart : Playback.Nears e.env spot e.playback.bare 0 e₀.playback := ⟨hbare, nofun⟩
  have hnot : e₀.playback.faces spot = false := by
    rw [Playback.faces_congr hbare, Bool.eq_false_iff]
    intro hf
    have hspot : e.cursor.spot? = some spot := of_decide_eq_true (Bool.and_eq_true_iff.1 hf).2
    unfold Cursor.spot? at hspot
    rw [hi] at hspot
    exact hlt.ne (congrArg Spot.index (Option.some.inj hspot))
  refine ⟨of_decide_eq_true (Bool.and_eq_true_iff.1 hfaces).2, fun l hl q hq => ?_,
    exists_moment hwalks hm hfaces hstart hnot⟩
  have hpath := takeAll_path (e := e₀) halone hwalks.plain.toSteps hl
  obtain ⟨n, hn⟩ := (hpath.nears hwalks.plain hstart hnot).1 q hq
  have hqf : q.faces spot = true := List.find?_some (p := fun p : Playback => p.faces spot) hq
  exact matches_of_bare (hm.unique hn hfaces hqf)

/-- Nothing but a selection ends a wait for one. -/
theorem moments_asks (ha : e.transients.runs = []) (he : e.playback.Asks)
    (hl : ∀ i ∈ l, i.IsPlain) : ∀ p ∈ e.moments l, p = e.playback := by
  induction l with
  | nil =>
    intro p hp
    rw [moments] at hp
    exact absurd hp List.not_mem_nil
  | cons i rest ih =>
    have hrest := ih fun j hj => hl j (List.mem_cons_of_mem _ hj)
    have htake : e.take i = e ∧ ∀ p ∈ e.takeTrace i, p = e.playback := by
      have hi := hl i List.mem_cons_self
      cases i with
      | tick delta =>
        obtain ⟨hsame, htrace⟩ := he.tick e.env delta
        refine ⟨?_, htrace⟩
        rw [show e.take (.tick delta) = _ from tick_alone ha delta, hsame]
      | goOn =>
        have hsame : e.take .goOn = e := by
          show e.onPlayback Playback.continueInput = e
          unfold onPlayback
          rw [he.continueInput]
        refine ⟨hsame, fun p hp => ?_⟩
        obtain rfl := List.mem_singleton.1 hp
        rw [hsame]
      | _ => exact absurd hi id
    intro p hp
    rcases List.mem_append.1 hp with hp | hp
    · exact htake.2 p hp
    · rw [htake.1] at hp
      exact hrest p hp

/-- Ticks and continued input waits come to a wait for a selection at once, if the first command
that they start heeds no time. -/
theorem moments_first (ha : e.transients.runs = []) (hw : e.cursor.waiting = false)
    (hidle : e.player.active = none) (hp : e.playback.startsUntimed e.env = true)
    (hasks : (e.playback.tick e.env 0).1.Asks) (hl : ∀ i ∈ l, i.IsPlain) :
    ∀ p ∈ e.moments l, p = e.playback ∨ p ∈ e.playback.tickTrace e.env 0 ∨
      p = (e.playback.tick e.env 0).1 := by
  induction l with
  | nil =>
    intro p hp
    rw [moments] at hp
    exact absurd hp List.not_mem_nil
  | cons i rest ih =>
    have hi := hl i List.mem_cons_self
    have hrest : ∀ j ∈ rest, j.IsPlain := fun j hj => hl j (List.mem_cons_of_mem _ hj)
    intro q hq
    cases i with
    | tick delta =>
      obtain ⟨htick, htrace⟩ := Playback.tick_even hw hidle hp delta
      have htake : e.take (.tick delta) = { e with playback := (e.playback.tick e.env 0).1 } := by
        rw [show e.take (.tick delta) = _ from tick_alone ha delta, htick]
      rcases List.mem_append.1 hq with hq | hq
      · exact .inr (.inl (htrace ▸ hq))
      · rw [htake] at hq
        exact .inr (.inr (moments_asks (e := { e with playback := (e.playback.tick e.env 0).1 })
          ha hasks hrest q hq))
    | goOn =>
      have hsame : e.take .goOn = e := by
        show e.onPlayback Playback.continueInput = e
        have hgo : e.playback.continueInput = e.playback := by
          unfold Playback.continueInput
          rw [show e.playback.cursor.waiting = false from hw]
          rfl
        unfold onPlayback
        rw [hgo]
      rcases List.mem_append.1 hq with hq | hq
      · obtain rfl := List.mem_singleton.1 hq
        rw [hsame]
        exact .inl rfl
      · rw [hsame] at hq
        exact ih hrest q hq
    | _ => exact absurd hi id

/-- A text that is told with the built-in commands alone. -/
theorem telling_steady {text : String} (h : telling text = some e) :
    e.Reachable ∧ e.registry.Starts Task.Steady := by
  obtain ⟨e₀, he₀, rfl⟩ := Option.map_eq_some_iff.1 h
  have hbuild := eq_ok_of_toOption he₀
  obtain ⟨l, hl⟩ : ∃ l : List Operation, l = [.loadScript "tale" text, .playFrom "tale" 0] :=
    ⟨_, rfl⟩
  have hregistry : (e₀.performAll l).registry = e₀.registry :=
    (performAll_free (fresh_build hbuild).read l).registry
  have hreach := (Reachable.build hbuild).performAll l
  have hsteady : (e₀.performAll l).registry.Starts Task.Steady := hregistry ▸ starts_build hbuild
    (fun _ => Task.steady_of_not_isHost) fun _ h => absurd h List.not_mem_nil
  rw [hl] at hreach hsteady
  exact ⟨hreach, hsteady⟩

/-- Lines and an input wait on the way to the last line. -/
def fourLines : String := "first\n@wait i\nthird\nlast\n"

/-- Playing on to the last line, with every input wait continued. -/
def lineByLine : List Input :=
  [.tick 0, .goOn, .tick 0, .goOn, .tick 0, .goOn, .tick 0]

/-- The last line is rewound to with what playing on to it leaves. -/
theorem rewind_agrees_fourLines : ∃ (e e' : Engine) (p : Playback), telling fourLines = some e ∧
    e.rewindTo (.line 4) = (e', .ok true) ∧ e'.cursor.spot? = some ⟨"tale", 3⟩ ∧
    ((e.setSkip false).moments lineByLine).find? (·.faces ⟨"tale", 3⟩) = some p ∧
    e'.Matches p := by
  have hrun : ((telling fourLines).any fun e =>
      (e.rewindTo (.line 4)).2.toOption = some true ∧ e.transients.runs.length = 0 ∧
        e.cursor.script = "tale" ∧ e.cursor.index = some 0 ∧
        (e.player.document.any fun d => (RewindTarget.line 4).index? d = some 3) = true ∧
        (((e.setSkip false).moments lineByLine).find? (·.faces ⟨"tale", 3⟩)).isSome = true) =
      true := by
    decide +kernel
  obtain ⟨e, he, hcheck⟩ := (Option.any_eq_true _ _).1 hrun
  obtain ⟨hreached, halone, hscript, hi, hindex, hfound⟩ := of_decide_eq_true hcheck
  obtain ⟨d, hd, ht⟩ := (Option.any_eq_true _ _).1 hindex
  obtain ⟨hreach, hsteady⟩ := telling_steady he
  obtain ⟨p, hp⟩ := Option.isSome_iff_exists.1 hfound
  have hrewind : e.rewindTo (.line 4) = ((e.rewindTo (.line 4)).1, .ok true) :=
    Prod.ext rfl (eq_ok_of_toOption hreached)
  have hagrees := rewind_agrees hreach hsteady (List.eq_nil_of_length_eq_zero halone) hd hi
    (of_decide_eq_true ht) (by decide) hrewind
  rw [hscript] at hagrees
  exact ⟨e, _, p, he, hrewind, hagrees.1, hp,
    hagrees.2.1 lineByLine (by simp [lineByLine, Input.IsPlain]) p hp⟩

/-- A group of options that a `choice` with a condition leaves open before an input wait. -/
def heldOption : String := "@choice A\n@choice B if:false\n@wait i\n@choice C\n@choice D\n"

/-- The last `choice` is rewound to past an input wait and an option that is pending. Playing on
never comes to it, as it waits for that option to be selected. -/
theorem rewind_passes_option : ∃ e e' : Engine, telling heldOption = some e ∧ e.Reachable ∧
    e.playback.choicesPending = false ∧ e.transients.runs = [] ∧
    e.rewindTo (.line 5) = (e', .ok true) ∧ e'.cursor.spot? = some ⟨"tale", 4⟩ ∧
    ∀ l : List Input, (∀ i ∈ l, i.IsPlain) →
      ∀ p ∈ (e.setSkip false).moments l, p.faces ⟨"tale", 4⟩ = false := by
  have hrun : ((telling heldOption).any fun e =>
      let u := e.setSkip false
      let q := (u.playback.tick u.env 0).1
      (e.playback.choicesPending = false ∧ e.transients.runs.length = 0 ∧
        (e.rewindTo (.line 5)).2.toOption = some true ∧
        (e.rewindTo (.line 5)).1.cursor.spot? = some ⟨"tale", 4⟩) ∧
      (u.cursor.waiting = false ∧ u.player.active.isNone = true ∧
        u.playback.startsUntimed u.env = true) ∧
      (q.scopes.isCancelled q.player.scope = false ∧ q.cursor.waiting = true ∧
        q.choicesPending = true) ∧
      ∀ p ∈ u.playback :: u.playback.tickTrace u.env 0 ++ [q], p.faces ⟨"tale", 4⟩ = false) =
      true := by
    decide +kernel
  obtain ⟨e, he, hcheck⟩ := (Option.any_eq_true _ _).1 hrun
  obtain ⟨⟨hpending, halone, hreached, hspot⟩, ⟨hwaiting, hidle, huntimed⟩, ⟨hlive, hasks, hheld⟩,
    hfaces⟩ := of_decide_eq_true hcheck
  have halone := List.eq_nil_of_length_eq_zero halone
  refine ⟨e, _, he, (telling_steady he).1, hpending, halone,
    Prod.ext rfl (eq_ok_of_toOption hreached), hspot, fun l hl p hp => hfaces p ?_⟩
  rcases moments_first (e := e.setSkip false) halone hwaiting (Option.isNone_iff_eq_none.1 hidle)
    huntimed ⟨hlive, hasks, hheld⟩ hl p hp with hp | hp | hp
  · exact hp ▸ List.mem_append_left _ List.mem_cons_self
  · exact List.mem_append_left _ (List.mem_cons_of_mem _ hp)
  · exact hp ▸ List.mem_append_right _ List.mem_cons_self

end Engine

end Playhead
