import Playhead.Proofs.Services.Engine

/-!
A rewind that misses its target and is undone leaves the cursor, the history and the records as
they were.
-/

namespace Playhead

namespace Engine

/-- How far a rewind gets before any of it is undone. -/
def rewindAttempt (e : Engine) (target : RewindTarget) : Engine × Except EngineError Bool :=
  match e.player.document with
  | none => (e, .ok false)
  | some d =>
    let index? := match target with
      | .line n => d.indexForLine? n
      | .label name => d.labelIndex? name
    match index? with
    | none => (e, .ok false)
    | some index => e.rewindWithin d (e.cursor.index.getD d.size) index

/-- The history and the records of one engine are those of another. -/
structure Retains (e e' : Engine) : Prop where
  stack : e'.stack = e.stack
  game : StateMap.collect e'.services .game = StateMap.collect e.services .game
  global : StateMap.collect e'.services .global = StateMap.collect e.services .global

variable {e e' : Engine}

theorem cursor_restorePlayer (p : Playback) (c : RewindCheckpoint) :
    (restorePlayer p c).cursor = c.cursor := by
  unfold restorePlayer
  dsimp only
  unfold Playback.setSkip
  split
  · rename_i h
    have hskip : p.cancelActive.cursor.skipping = c.cursor.skipping := h
    show { c.cursor with skipping := p.cancelActive.cursor.skipping } = c.cursor
    rw [hskip]
  · rfl

theorem services_restorePlayer {p : Playback}
    (hq : ∀ a, p.player.active = some a → a.task.Quiet) (c : RewindCheckpoint) :
    (restorePlayer p c).services = p.services := by
  have hcancel : p.cancelActive.services = p.services := by
    unfold Playback.cancelActive
    cases ha : p.player.active with
    | none => rfl
    | some a => exact hq a ha _ .refl p.services
  unfold restorePlayer
  dsimp only
  rw [Playback.services_setSkip]
  exact hcancel

theorem restoreCheckpoint_ok {c : RewindCheckpoint} (h : e.restoreCheckpoint c = (e', .ok ()))
    (hq : ∀ a, e.player.active = some a → a.task.Quiet) :
    ∃ s, c.game.apply .game e.services = (s, .ok ()) ∧
      c.global.apply .global s = (e'.services, .ok ()) ∧ e'.stack = c.stack ∧
      e'.cursor = c.cursor := by
  obtain ⟨u, hu⟩ : ∃ u, u = e.onPlayback (·.setSynchronizing true) := ⟨_, rfl⟩
  have hservices : u.services = e.services := by rw [hu]; rfl
  have hactive : u.player.active = e.player.active := by rw [hu]; rfl
  unfold restoreCheckpoint at h
  dsimp only at h
  rw [← hu, hservices] at h
  generalize hg : c.game.apply .game e.services = x at h
  obtain ⟨s, err | _⟩ := x
  · cases h
  · dsimp only at h
    generalize ht : c.global.apply .global s = x at h
    obtain ⟨t, err | _⟩ := x
    · cases h
    · have hend : e' = ((u.withServices t).withStack c.stack).onPlayback (restorePlayer · c) :=
        (congrArg Prod.fst h).symm
      refine ⟨s, rfl, ?_, ?_, ?_⟩
      · have hs : e'.services = t := by
          rw [hend]
          exact services_restorePlayer (p := ((u.withServices t).withStack c.stack).playback)
            (fun a ha => hq a (hactive ▸ ha)) c
        rw [hs, ht]
      · rw [hend]
        exact congrArg Bearings.stack (bearings_restorePlayer _ c)
      · rw [hend]
        exact cursor_restorePlayer _ c

theorem rewindCheckpoint_ok {c : RewindCheckpoint} (h : e.rewindCheckpoint = .ok c) :
    StateMap.collect e.services .game = .ok c.game ∧
      StateMap.collect e.services .global = .ok c.global := by
  unfold rewindCheckpoint at h
  obtain ⟨game, hgame, h⟩ := exists_of_bind_ok h
  obtain ⟨global, hglobal, h⟩ := exists_of_bind_ok h
  cases h
  exact ⟨exists_of_mapError_ok hgame, exists_of_mapError_ok hglobal⟩

/-- Undoing an attempt puts history and records back. -/
theorem restoreCheckpoint_retains {c : RewindCheckpoint} {u : Engine}
    (hs : e.services.Exact) (hc : e.rewindCheckpoint = .ok c)
    (hshape : u.services.shape = e.services.shape)
    (hq : ∀ a, u.player.active = some a → a.task.Quiet)
    (h : u.restoreCheckpoint c = (e', .ok ())) : e'.cursor = e.cursor ∧ Retains e e' := by
  obtain ⟨s, hgame, hglobal, hstack, hcursor⟩ := restoreCheckpoint_ok h hq
  obtain ⟨hsaved, hkept⟩ := rewindCheckpoint_ok hc
  obtain ⟨hcursor', -, hstack'⟩ := rewindCheckpoint_eq hc
  have hs₁ : s.shape = e.services.shape := by
    have happly := StateMap.shape_apply c.game .game u.services
    rw [hgame] at happly
    exact happly.trans hshape
  obtain ⟨hcollect, -⟩ := StateMap.collect_of_apply hs.distinct
    (fun k hk => (hs.host k hk).1) hshape hsaved hgame
  obtain ⟨hcollect', -⟩ := StateMap.collect_of_apply hs.distinct
    (fun k hk => (hs.host k hk).2.1) hs₁ hkept hglobal
  have happart := StateMap.collect_game_of_apply hs.distinct
    (fun k hk => (hs.host k hk).2.2) hs₁ hkept hglobal
  refine ⟨hcursor.trans hcursor', hstack.trans hstack', ?_, ?_⟩
  · rw [happart, hcollect, hsaved]
  · rw [hcollect', hkept]

theorem rewindToIndex_misses (hs : e.services.Exact) {d : Document} {index : Nat}
    {u : Engine} {result : Except EngineError Bool}
    (hu : e.rewindWithin d (e.cursor.index.getD d.size) index = (u, result))
    (hshape : u.services.shape = e.services.shape)
    (hq : ∀ a, u.player.active = some a → a.task.Quiet)
    (h : e.rewindToIndex d index = (e', .ok false)) :
    e'.cursor = e.cursor ∧ (Retains e e' ∨ u = e' ∧ result = .ok false) := by
  unfold rewindToIndex at h
  dsimp only at h
  split at h
  · cases h
  · cases hc : e.rewindCheckpoint with
    | error err =>
      rw [hc] at h
      cases h
    | ok c =>
      rw [hc, hu] at h
      obtain ⟨hcursor, -, -⟩ := rewindCheckpoint_eq hc
      obtain err | _ | _ := result
      · cases h
      · dsimp only at h
        split at h
        · rename_i hsame
          cases h
          exact ⟨hsame.trans hcursor, .inr ⟨rfl, rfl⟩⟩
        · generalize hrestore : u.restoreCheckpoint c = r at h
          obtain ⟨v, err | _⟩ := r
          · cases h
          · cases h
            obtain ⟨hback, hretains⟩ := restoreCheckpoint_retains hs hc hshape hq hrestore
            exact ⟨hback, .inl hretains⟩
      · cases h

/-- A rewind that misses leaves the cursor where it was. The history and the records are as before
too, unless the attempt itself had come back to the cursor, so that nothing was undone. -/
theorem missed_rewind {config : Config} {parts : EngineParts} {e₀ : Engine}
    (hbuild : build config parts = .ok e₀)
    (hcommands : ∀ h ∈ parts.commands, ∀ c t, h.begin c = .ok t → t.Tame ∧ t.Quiet)
    (hservices : ∀ k ∈ parts.services, k.HandsBack .game ∧ k.HandsBack .global ∧ k.HoldsApart)
    {l : List Operation} (hl : ∀ op ∈ l, op.Keeps e₀.services.shape) {target : RewindTarget}
    (h : (e₀.performAll l).rewindTo target = (e', .ok false)) :
    e'.cursor = (e₀.performAll l).cursor ∧ (Retains (e₀.performAll l) e' ∨
      (e₀.performAll l).rewindAttempt target = (e', .ok false)) := by
  have htame :=
    (tame_build hbuild fun k hk c t ht => (hcommands k hk c t ht).1).performAll_of_free hl
  have hfresh := fresh_build hbuild
  have hturns := performAll_free hfresh.read l
  have hexact : (e₀.performAll l).services.Exact := by
    obtain ⟨hdistinct, -, hhost⟩ := services_build hbuild
    exact ServiceSet.Exact.of_shape ⟨hdistinct, hhost ▸ hservices⟩ htame.playback.shape
  have hquiet : ∀ d current index a,
      ((e₀.performAll l).rewindWithin d current index).1.player.active = some a →
        a.task.Quiet := by
    intro d current index
    have hwithin := hturns.trans
      (rewindWithin_turns (hfresh.read.turns hturns) d current index)
    refine hwithin.turns.starts ?_ (fun _ _ hstems ht => ht.stems hstems) fun a ha => ?_
    · exact starts_build hbuild (fun _ => Task.quiet_of_not_isHost)
        fun k hk c t ht => (hcommands k hk c t ht).2
    · cases hfresh.active.symm.trans ha
  have hshape : ∀ d current index,
      ((e₀.performAll l).rewindWithin d current index).1.services.shape =
        (e₀.performAll l).services.shape := fun d current index =>
    (htame.rewindWithin d current index).playback.shape.trans htame.playback.shape.symm
  generalize e₀.performAll l = e at *
  unfold rewindTo at h
  unfold rewindAttempt
  cases hd : e.player.document with
  | none =>
    rw [hd] at h
    cases h
  | some d =>
    rw [hd] at h
    have hindex : ∀ index, e.rewindToIndex d index = (e', .ok false) →
        e'.cursor = e.cursor ∧ (Retains e e' ∨
          e.rewindWithin d (e.cursor.index.getD d.size) index = (e', .ok false)) := by
      intro index h
      obtain ⟨hcursor, hretains | ⟨hu, hresult⟩⟩ := rewindToIndex_misses hexact rfl
        (hshape d _ index) (hquiet d _ index) h
      · exact ⟨hcursor, .inl hretains⟩
      · exact ⟨hcursor, .inr (Prod.ext hu hresult)⟩
    cases target with
    | line n =>
      dsimp only at h ⊢
      cases hn : d.indexForLine? n with
      | none =>
        rw [hn] at h
        cases h
        exact ⟨rfl, .inl ⟨rfl, rfl, rfl⟩⟩
      | some index =>
        rw [hn] at h
        exact hindex index h
    | label name =>
      dsimp only at h ⊢
      cases hn : d.labelIndex? name with
      | none =>
        rw [hn] at h
        cases h
      | some index =>
        rw [hn] at h
        exact hindex index h

/-- A jump over the command after it. -/
def jumpOver : String := "@goto .L\n@print skipped\n#L\n@print end\n"

/-- A run after which the jump is next. -/
def beforeJump : List Operation :=
  [.loadScript "tale" jumpOver, .playFrom "tale" 0]

/-- The jump misses the command after it, and is undone. -/
theorem missed_rewind_jump : ∃ e e', build {} {} = .ok e ∧
    (e.performAll beforeJump).rewindTo (.line 2) = (e', .ok false) ∧
    e'.cursor = (e.performAll beforeJump).cursor ∧ Retains (e.performAll beforeJump) e' := by
  have hrun : ((build {} {}).toOption.any fun e =>
      ((e.performAll beforeJump).rewindTo (.line 2)).2.toOption = some false ∧
        ((e.performAll beforeJump).rewindAttempt (.line 2)).1.cursor ≠
          (e.performAll beforeJump).cursor) = true := by
    decide +kernel
  obtain ⟨e, he, hcheck⟩ := (Option.any_eq_true _ _).1 hrun
  obtain ⟨hmiss, hleft⟩ := of_decide_eq_true hcheck
  have hbuild := eq_ok_of_toOption he
  have hkeeps : ∀ op ∈ beforeJump, op.Keeps e.services.shape := by
    intro op hop
    unfold beforeJump at hop
    simp only [List.mem_cons, List.not_mem_nil, or_false] at hop
    rcases hop with rfl | rfl <;> exact trivial
  have hrewind : (e.performAll beforeJump).rewindTo (.line 2) =
      (((e.performAll beforeJump).rewindTo (.line 2)).1, .ok false) :=
    Prod.ext rfl (eq_ok_of_toOption hmiss)
  obtain ⟨hcursor, hretains⟩ := missed_rewind hbuild (fun _ h => absurd h List.not_mem_nil)
    (fun _ h => absurd h List.not_mem_nil) hkeeps hrewind
  refine ⟨e, _, hbuild, hrewind, hcursor, hretains.resolve_right fun h => hleft ?_⟩
  rw [h]
  exact hcursor

/-- A jump at which playback can go on by two commands only. -/
def jumpAfterSet : String := "@set a = 1\n@goto .L\n@print skipped\n#L\n@print end\n"

def twoCommands : Config := { player := { maxCommands := 2 } }

/-- A run after which both commands before the label have ended. -/
def afterJump : List Operation :=
  [.loadScript "tale" jumpAfterSet, .playFrom "tale" 0, .input (.tick 0)]

/-- The services after a variable of the game was set. -/
def withVariable (s : ServiceSet) : ServiceSet :=
  { s with variableStore := s.variableStore.map (·.set "b" (.bool true)) }

/-- What is collected of the variables of the game. -/
def variablesText (s : ServiceSet) : Option String :=
  (StateMap.collect s .game).toOption.bind fun m => (m.get? "variables").map Json.compact

/-- A variable that the host has set is lost to a rewind that misses. -/
theorem missed_rewind_forgets : ∃ e s e', build twoCommands {} = .ok e ∧
    s = withVariable (e.performAll afterJump).services ∧
    ((e.performAll afterJump).perform (.write s)).rewindTo (.line 3) = (e', .ok false) ∧
    StateMap.collect e'.services .game ≠
      StateMap.collect ((e.performAll afterJump).perform (.write s)).services .game := by
  have hrun : ((build twoCommands {}).toOption.any fun e =>
      let s := withVariable (e.performAll afterJump).services
      let r := ((e.performAll afterJump).perform (.write s)).rewindTo (.line 3)
      r.2.toOption = some false ∧ variablesText r.1.services ≠ variablesText s) = true := by
    decide +kernel
  obtain ⟨e, he, hcheck⟩ := (Option.any_eq_true _ _).1 hrun
  obtain ⟨hmiss, hlost⟩ := of_decide_eq_true hcheck
  refine ⟨e, _, _, eq_ok_of_toOption he, rfl, Prod.ext rfl (eq_ok_of_toOption hmiss), fun h => ?_⟩
  exact hlost (congrArg (fun r : Except ServiceError StateMap =>
    r.toOption.bind fun m => (m.get? "variables").map Json.compact) h)

end Engine

end Playhead
