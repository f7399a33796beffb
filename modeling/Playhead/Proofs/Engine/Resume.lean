import Playhead.Proofs.Engine.Loading
import Playhead.Proofs.Engine.Replay

/-!
A game that is saved and loaded at once.

A save keeps where playback is, but not whether it came there from a branch that was not taken.
Where it did not, playback goes on after the load as it would have gone on without it.
-/

namespace Playhead

namespace Engine

variable {e e' e₁ : Engine} {slot : String}

/-- Main playback runs alone in a scope that is not cancelled, with nothing in flight and no option
pending, in a script that is held. -/
structure Poised (e : Engine) : Prop where
  running : e.player.isRunning = true
  idle : e.player.active = none
  settled : e.playback.choicesPending = false
  alone : e.transients.runs = []
  budget : 0 < e.config.player.maxCommands
  held : ∀ d, e.player.document = some d → e.library.get? d.name = some d
  live : e.playback.scopes.isCancelled e.player.scope = false
  forward : e.player.fastForward = none
  cancelled : ∀ n ∈ e.playback.scopes.cancelled, n < e.playback.scopes.next
  scope : e.player.scope.id < e.playback.scopes.next

theorem Poised.sound (he : e.Poised) (hr : e.Read) (hp : e.bearings.Placed) : e.Sound := by
  have hshelf : (e.playback.shelf e.env).Sound := by
    refine ⟨hr.registry, fun name d hd => ?_⟩
    obtain ⟨⟨d', k⟩, hload, hd⟩ := exists_of_map_ok hd
    cases hd
    exact (ScriptLibrary.Sound.load hr.registry hr.scripts.library hload).2
  have hplaced : e.playback.standing.Placed (e.playback.shelf e.env) := by
    intro d i hd hi
    refine ⟨?_, hp.inside d i hd hi⟩
    have hget : e.playback.library.get? d.name = some d := he.held d hd
    unfold Playback.shelf ScriptLibrary.load
    dsimp only
    rw [hget]
    rfl
  have hgrounded : e.playback.Grounded e.env := ⟨hshelf, he.live, he.forward, hplaced⟩
  exact Live.sound
    ⟨(hgrounded.sound he.idle).toLive, he.alone, he.budget, he.cancelled, he.scope⟩ he.idle

theorem Poised.ready (he : e.Poised) : e.Ready := by
  have hrunning := he.running
  unfold Player.isRunning at hrunning
  refine ⟨?_, he.settled⟩
  cases hh : e.player.halted with
  | false => rfl
  | true => simp [hh] at hrunning

/-- One engine plays like another: it starts the commands that the other one starts and leaves the
same games behind, for as far as both go and no command of the host is started. With time that
passes it comes as far as the other one, if no option is registered and nothing halts. -/
structure PlaysLike (e' e : Engine) : Prop where
  along : ∀ l l', (∀ i ∈ l, ¬i.IsSelect) → (∀ i ∈ l', ¬i.IsSelect) →
    (∀ spot name, .commandExecuted spot name ∈ e.plotOf l → name ∈ Builtin.names) →
    Along (e'.startsOf l') (e.startsOf l) ∧ Along (e'.gamesOf l') (e.gamesOf l)
  reaches : ∀ l, (∀ i ∈ l, ¬i.IsSelect) →
    (∀ spot name, .commandExecuted spot name ∈ e.plotOf l → Builtin.Steady name) →
    ∀ delta, (∀ i, 0 < delta i) → ∃ n, e.startsOf l <+: e'.startsOf (rounds delta n) ∧
      e.gamesOf l <+: e'.gamesOf (rounds delta n)

/-- Engines that stand alike play alike, if nothing is in flight. -/
theorem playsLike_of_standing (he : e.Sound) (he' : e'.Sound) (hr : e'.Ready)
    (hidle : e.player.active = none) (hs : e'.playback.standing = e.playback.standing)
    (hw : e'.playback.shelf e'.env = e.playback.shelf e.env) : e'.PlaysLike e where
  along l l' hl hl' hb := by
    obtain ⟨m, hm, -⟩ := takeAll_follows he hl hb
    rw [startsOf_eq hm, gamesOf_eq hm]
    refine agrees he' (v := (e.takeAll l).playback.standing) ?_ hm.names hl'
    rw [hs, hw]
    exact hm.leads
  reaches l hl hsteady delta hd := by
    obtain ⟨m, hm, -⟩ := takeAll_follows he hl fun spot name h => (hsteady spot name h).1
    have hleads : e'.playback.standing.Leads (e'.playback.shelf e'.env) m
        (e.takeAll l).playback.standing := by
      rw [hs, hw]
      exact hm.leads
    have hstarts : Standing.Starts m Builtin.Steady := by
      intro spot name h
      refine hsteady spot name ?_
      rw [plotOf_eq hm]
      exact List.mem_filterMap.2 ⟨_, h, rfl⟩
    have hcurrent : ∀ name, e'.playback.standing.Current name → Builtin.Steady name := by
      have hbusy : e.playback.standing.busy = false := by
        show e.player.active.isSome = false
        rw [hidle]
        rfl
      rw [hs]
      exact fun name h => (Standing.not_current hbusy name h).elim
    obtain ⟨n, hn⟩ :=
      rounds_cover _ delta hd he' hr hleads hstarts hcurrent (Nat.lt_succ_self _)
    rw [startsOf_eq hm, gamesOf_eq hm]
    exact ⟨n, hn.covers hleads hm.names⟩

theorem Restored.playsLike (he : e.Sound) (hp : e.Poised)
    (h : Restored e e.playback.standing e') : e'.PlaysLike e ∧ e.PlaysLike e' := by
  have hbusy : e'.player.active.isSome = e.player.active.isSome :=
    congrArg Standing.busy h.standing
  rw [hp.idle] at hbusy
  have hidle : e'.player.active = none := by
    rw [← Option.not_isSome_iff_eq_none, hbusy]
    exact Bool.false_ne_true
  have hready : e'.Ready := by
    refine ⟨h.going, ?_⟩
    have hservices : e'.services.story = e.services.story := congrArg Standing.services h.standing
    show e'.services.story.choicesPending = false
    rw [hservices]
    exact hp.settled
  exact ⟨playsLike_of_standing he h.sound hready hp.idle h.standing h.shelf,
    playsLike_of_standing h.sound he hp.ready hidle h.standing.symm h.shelf.symm⟩

theorem Sound.saved (he : e.Sound) (m : StateManager) (v : SaveSlots) :
    Sound { e.withManager m with saves := v } := by
  refine ⟨⟨⟨⟨he.main.shelf, he.main.live, he.main.forward, he.main.placed⟩, fun a ha => ?_⟩,
    he.alone, he.budget, he.cancelled, he.scope⟩, he.builtin⟩
  obtain ⟨d, c, h, hf⟩ := he.main.active a ha
  exact ⟨d, c, h, hf.congr rfl rfl rfl⟩

/-- Loading a game whose records the services take in. -/
theorem loadGame_sound {f : Engine} (hf : f.Sound) {save : GameSave} {record : PlaybackRecord}
    {d : Document} {s : ServiceSet} (hread : e.readGame slot = (f, .ok (save, record, d)))
    (happly : save.records.apply .game f.services = (s, .ok ())) :
    ∃ p : Playback, e.loadGame slot = ({ f with playback :=
        (p.restorePosition d record.spot.index record.played record.waiting) }, .ok ()) ∧
      p.services = s ∧ p.plot = f.playback.plot ∧ p.player.active = none ∧
      p.backdrop = f.playback.backdrop.renew := by
  have hrenewed := cancelPlaybackScope_eq hf
  have hservices : f.cancelPlaybackScope.services = f.services := by
    rw [hrenewed]
    rfl
  obtain ⟨m, hload, -⟩ := loadGame_eq hread (hservices ▸ happly)
  rw [hrenewed] at hload
  exact ⟨_, hload, rfl, rfl, rfl, rfl⟩

/-- A game that is loaded right after it was saved stands where it stood. -/
theorem loadGame_restores (he : e.Sound) (hp : e.bearings.Placed) (hidle : e.player.active = none)
    (hfresh : e.player.arrivedByBranch = false) (hr : Retained e.stack.snapshots)
    (hf : e.services.Faithful) (hs : e.services.Storable) (hfits : e.Fits)
    (hnames : ∀ key ∈ e.services.keys, GameSave.isReserved (e.services.idOf key) = false)
    {slots : ByScope (NameMap StateMap)} (hv : e.saves = .memory slots)
    (hsave : e.saveGame slot = (e₁, .ok ())) :
    ∃ e₂, e₁.loadGame slot = (e₂, .ok ()) ∧ Restored e e.playback.standing e₂ := by
  obtain ⟨record, m, map, v, hrecord, hmap, hstores, rfl⟩ := saveGame_ok hv hsave
  obtain ⟨d, i, records, hd, hi, hinside, rfl, hcollect, hparts⟩ :=
    ofMap_saved hp hr hnames hfits hrecord hmap
  have hscript : (e.playback.shelf e.env).script d.name = .ok d :=
    (he.playback.placed d i hd hi).1
  have hsaved := he.saved m v
  obtain ⟨k, hload, hk, hsound⟩ := loadDocument_eq hsaved hscript
  have hread := readGame_ok hstores hparts rfl hload hinside.le
  have hpeers : e.services.Peers e.services := ⟨rfl, rfl, rfl, rfl, rfl⟩
  obtain ⟨s, happly, hstory⟩ := StateMap.apply_collect hpeers rfl hs hf hcollect
  obtain ⟨p, hresult, hservices, hplot, hactive, hbackdrop⟩ :=
    loadGame_sound hsound hread happly
  have hplayed : (if e.player.active.isSome then e.cursor.played - 1 else e.cursor.played) =
      e.cursor.played := by
    rw [hidle]
    rfl
  rw [hplayed] at hresult
  have hbusy : e.playback.standing.busy = false := by
    show e.player.active.isSome = false
    rw [hidle]
    rfl
  have hrestored := restorePosition_restores hsound (t := e.playback.standing) hd hi hbusy hfresh
    (hk ▸ he.playback.placed) (by rw [hservices]; exact hstory) hplot hactive hbackdrop
    e.cursor.waiting
  exact ⟨_, hresult, ⟨hrestored.sound, hrestored.env, hrestored.shelf.trans hk,
    hrestored.standing, hrestored.plot, hrestored.going⟩⟩

/-- A game that is saved and loaded at once goes on as it would have gone on without that, unless
its next command was come to from a branch that was not taken. -/
theorem loadGame_plays_on {config : Config} {parts : EngineParts} {e₀ : Engine}
    (hbuild : build config parts = .ok e₀) {l : List Operation} (he : e = e₀.performAll l)
    (hp : e.Poised) (hfresh : e.player.arrivedByBranch = false) (hf : e.services.Faithful)
    (hnames : ∀ key ∈ e.services.keys, GameSave.isReserved (e.services.idOf key) = false)
    (hs : e.services.Storable) (hfits : e.Fits) {slots : ByScope (NameMap StateMap)}
    (hv : e.saves = .memory slots) (hsave : e.saveGame slot = (e₁, .ok ())) :
    ∃ e₂, e₁.loadGame slot = (e₂, .ok ()) ∧ e₂.PlaysLike e ∧ e.PlaysLike e₂ := by
  have hreached : e.Reached := he ▸ reached_performAll hbuild l
  have hsound := hp.sound hreached.read hreached.placed
  obtain ⟨e₂, hload, hrestored⟩ := loadGame_restores hsound hreached.placed hp.idle hfresh
    hreached.retained hf hs hfits hnames hv hsave
  exact ⟨e₂, hload, hrestored.playsLike hsound hp⟩

/-- The last line of the tale is told as it would have been told without the save. -/
theorem loadGame_plays_on_tale : ∃ e₀ t e₁ e₂, build {} {} = .ok e₀ ∧
    t = e₀.performAll (threeLines :: tellOn) ∧ t.saveGame "a" = (e₁, .ok ()) ∧
    e₁.loadGame "a" = (e₂, .ok ()) ∧ e₂.PlaysLike t ∧ t.PlaysLike e₂ := by
  obtain ⟨e₀, t, htold, hcheck⟩ := exists_toldOn
    (fun t => t.player.isRunning ∧ t.player.active.isNone ∧ t.playback.choicesPending = false ∧
      t.transients.runs.isEmpty ∧ 0 < t.config.player.maxCommands ∧
      t.playback.scopes.isCancelled t.player.scope = false ∧ t.player.fastForward.isNone ∧
      (t.playback.scopes.cancelled.all fun n => n < t.playback.scopes.next) ∧
      t.player.scope.id < t.playback.scopes.next ∧ t.player.arrivedByBranch = false ∧
      t.services.ids.Nodup ∧ t.services.host.isEmpty) (by decide +kernel)
  obtain ⟨hrunning, hidle, hsettled, halone, hbudget, hlive, hforward, hcancelled, hscope, hfresh,
    hnodup, hhost⟩ := of_decide_eq_true hcheck
  have hpoised : t.Poised := ⟨hrunning, Option.isNone_iff_eq_none.1 hidle, hsettled,
    List.isEmpty_iff.1 halone, hbudget, htold.held, hlive, Option.isNone_iff_eq_none.1 hforward,
    fun n hn => of_decide_eq_true (List.all_eq_true.1 hcancelled n hn), hscope⟩
  have hhost := List.isEmpty_iff.1 hhost
  have hfaithful : t.services.Faithful :=
    ServiceSet.faithful_of_nodup hnodup fun k hk => by rw [hhost] at hk; cases hk
  obtain ⟨slots, hslots⟩ := htold.memory
  obtain ⟨e₂, hload, hlike, hlike'⟩ := loadGame_plays_on htold.built htold.run hpoised hfresh
    hfaithful (not_reserved_of_builtin hhost) (ServiceSet.storable_of_isBlank htold.blank).1
    htold.fits hslots htold.saved
  exact ⟨e₀, t, _, e₂, htold.built, htold.run, htold.saved, hload, hlike, hlike'⟩

/-- A block whose first branch is not taken. -/
def notThenElse : String := "@if false\n@print x\n@else\n@print y\n@endif\n@print z\n"

def tickBlock : List Operation :=
  [.loadScript "tale" notThenElse, .playFrom "tale" 0, .input (.tick 0)]

/-- A tick of one command ends between the condition that does not hold and the other branch. That
branch is left out after a load. -/
theorem loadGame_skips_branch : ∃ e₀ t e₁ e₂,
    build { player := { maxCommands := 1 } } {} = .ok e₀ ∧ t = e₀.performAll tickBlock ∧
    t.player.isRunning = true ∧ t.player.active = none ∧ t.playback.choicesPending = false ∧
    t.transients.runs = [] ∧ t.services.Storable ∧
    t.saveGame "a" = (e₁, .ok ()) ∧ e₁.loadGame "a" = (e₂, .ok ()) ∧
    t.startsOf [.tick 0, .tick 0] = [(⟨"tale", 2⟩, "else"), (⟨"tale", 3⟩, "print")] ∧
    e₂.startsOf [.tick 0, .tick 0] = [(⟨"tale", 4⟩, "endif"), (⟨"tale", 5⟩, "print")] := by
  have hrun : ((build { player := { maxCommands := 1 } } {}).toOption.any fun e =>
      let t := e.performAll tickBlock
      t.player.isRunning ∧ t.player.active.isNone ∧ t.playback.choicesPending = false ∧
        t.transients.runs.isEmpty ∧ t.services.isBlank ∧
        (t.saveGame "a").2.toOption = some () ∧
        ((t.saveGame "a").1.loadGame "a").2.toOption = some () ∧
        t.startsOf [.tick 0, .tick 0] = [(⟨"tale", 2⟩, "else"), (⟨"tale", 3⟩, "print")] ∧
        ((t.saveGame "a").1.loadGame "a").1.startsOf [.tick 0, .tick 0] =
          [(⟨"tale", 4⟩, "endif"), (⟨"tale", 5⟩, "print")]) = true := by
    decide +kernel
  obtain ⟨e₀, he₀, hcheck⟩ := (Option.any_eq_true _ _).1 hrun
  obtain ⟨hrunning, hidle, hsettled, halone, hblank, hsave, hload, hstarts, hstarts'⟩ :=
    of_decide_eq_true hcheck
  exact ⟨e₀, _, _, _, eq_ok_of_toOption he₀, rfl, hrunning, Option.isNone_iff_eq_none.1 hidle,
    hsettled, List.isEmpty_iff.1 halone, (ServiceSet.storable_of_isBlank hblank).1,
    Prod.ext rfl (eq_ok_of_toOption hsave), Prod.ext rfl (eq_ok_of_toOption hload), hstarts,
    hstarts'⟩

end Engine

end Playhead
