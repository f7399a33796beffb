import Playhead.Engine.Play
import Playhead.Proofs.Standing.Tick

/-!
Engines as they are built and as they start to play.
-/

namespace Playhead

namespace Playback

/-- The shelf of a library that was added to. -/
theorem shelf_insert (env : Env) {p : Playback} {k : ScriptLibrary} {name text : String}
    {d : Document} (h : p.library.insert env.source.registry name text = .ok (d, k))
    (other : String) :
    (({ p with library := k } : Playback).shelf env).script other =
      if name = other then .ok d else (p.shelf env).script other := by
  unfold ScriptLibrary.insert at h
  cases hp : Document.parse env.source.registry p.library.waitByDefault name text with
  | error e =>
    rw [hp] at h
    cases h
  | ok d' =>
    rw [hp] at h
    cases h
    have hget := NameMap.get?_insert p.library.documents name other d
    show Except.map Prod.fst (ScriptLibrary.load _ _ other) = _
    unfold ScriptLibrary.load ScriptLibrary.get?
    dsimp only
    rw [hget]
    by_cases hn : name = other
    · rw [if_pos hn, if_pos hn]
      rfl
    · rw [if_neg hn, if_neg hn]
      show _ = Except.map Prod.fst (ScriptLibrary.load _ _ other)
      unfold ScriptLibrary.load ScriptLibrary.get?
      cases p.library.documents.get? other with
      | some d' => rfl
      | none => exact ScriptLibrary.reload_documents p.library _ env.source other

theorem shelf_sound_insert {env : Env} {p : Playback} {k : ScriptLibrary} {name text : String}
    {d : Document} (hp : (p.shelf env).Sound)
    (h : p.library.insert env.source.registry name text = .ok (d, k)) :
    (({ p with library := k } : Playback).shelf env).Sound where
  registry := hp.registry
  staged other d' hd' := by
    rw [shelf_insert env h] at hd'
    split at hd'
    · rename_i hn
      cases hd'
      rw [← hn]
      unfold ScriptLibrary.insert at h
      cases hparse : Document.parse env.source.registry p.library.waitByDefault name text with
      | error e =>
        rw [hparse] at h
        cases h
      | ok d' =>
        rw [hparse] at h
        cases h
        exact Document.staged_of_parse hp.registry hparse
    · exact hp.staged other d' hd'

end Playback

namespace Engine

/-- An engine whose main playback is live and alone, with scopes that are still to be handed out. -/
structure Live (e : Engine) : Prop where
  main : e.playback.Live e.env
  alone : e.transients.runs = []
  budget : 0 < e.config.player.maxCommands
  cancelled : ∀ n ∈ e.playback.scopes.cancelled, n < e.playback.scopes.next
  scope : e.player.scope.id < e.playback.scopes.next

/-- A live engine with no command of the host in flight. -/
structure Sound (e : Engine) : Prop extends Live e where
  builtin : ∀ name, e.playback.standing.Current name → name ∈ Builtin.names

theorem Sound.playback {e : Engine} (he : e.Sound) : e.playback.Sound e.env :=
  ⟨he.main, he.builtin⟩

theorem Live.sound {e : Engine} (he : e.Live) (ha : e.player.active = none) : e.Sound :=
  ⟨he, (he.main.toGrounded.sound ha).builtin⟩

/-- An engine whose playback has wandered on is live if its playback is. -/
theorem Live.wanders {e : Engine} {p : Playback} {m : List Note} {g : List ServiceSet} (he : e.Live)
    (hm : Playback.Wanders e.env e.playback m p g) (hp : p.Live e.env) :
    Live { e with playback := p } where
  main := hp
  alone := he.alone
  budget := he.budget
  cancelled := by
    show ∀ n ∈ p.scopes.cancelled, n < p.scopes.next
    rw [hm.scopes]
    exact he.cancelled
  scope := by
    show p.player.scope.id < p.scopes.next
    rw [hm.scopes, hm.scope]
    exact he.scope

theorem Sound.stays {e : Engine} {p : Playback} (he : e.Sound) (h : Playback.Stays e.playback p) :
    Sound { e with playback := p } :=
  ⟨he.wanders (.of_stays h) (he.main.stays h), (he.playback.stays h).builtin⟩

/-- What an engine is built of. -/
theorem build_eq_ok {config : Config} {parts : EngineParts} {e : Engine}
    (h : build config parts = .ok e) : ∃ registry services, config.check = .ok () ∧
      Registry.builtin.registerAll parts.commands = .ok registry ∧
      registerServices (.builtin (.ofConfig config.player)) parts.services = .ok services ∧
      e = {
        config := config
        registry := registry
        resources := parts.resources
        files := parts.files
        saves := parts.saves
        transients := .empty
        playback := {
          player := .inScope parts.scopes.root.1
          scene := ⟨services, []⟩
          manager := .empty config.state.rollbackDepth
          library := .empty config.scripts.root config.player.waitByDefault
          scopes := parts.scopes.root.2 } } := by
  obtain ⟨u, hconfig, h⟩ := exists_of_bind_ok h
  obtain ⟨registry, hregistry, h⟩ := exists_of_bind_ok h
  obtain ⟨services, hservices, h⟩ := exists_of_bind_ok h
  exact ⟨registry, services, exists_of_mapError_ok hconfig, exists_of_mapError_ok hregistry,
    exists_of_mapError_ok hservices, (Except.ok.inj h).symm⟩

theorem sound_registerAll {l : List Handler} {registry : Registry}
    (h : Registry.builtin.registerAll l = .ok registry) : registry.Sound := by
  exact ⟨Builtin.distinct.registerAll h, fun k hk =>
    Registry.get?_registerAll h (Builtin.distinct k hk)⟩

/-- An engine that has just been built is sound. -/
theorem sound_build {config : Config} {parts : EngineParts} {e : Engine}
    (h : build config parts = .ok e)
    (hs : ∀ n ∈ parts.scopes.cancelled, n < parts.scopes.next) : e.Sound := by
  obtain ⟨registry, services, hcheck, hregistry, -, rfl⟩ := build_eq_ok h
  have hsound := sound_registerAll hregistry
  have hbudget : 0 < config.player.maxCommands := by
    unfold Config.check at hcheck
    split at hcheck
    · cases hcheck
    · rename_i hne
      exact Nat.pos_of_ne_zero hne
  have hlive : parts.scopes.root.2.isCancelled parts.scopes.root.1 = false := by
    simp only [Cancellations.isCancelled, Cancellations.root, List.any_cons, List.any_nil,
      Bool.or_false]
    rw [Bool.eq_false_iff]
    intro hc
    have := hs _ (List.contains_iff_mem.1 hc)
    omega
  refine Live.sound ⟨⟨⟨⟨hsound, fun name d hd => ?_⟩, hlive, rfl, fun d i hd => ?_⟩,
    fun a ha => ?_⟩, rfl, hbudget, fun n hn => ?_, Nat.lt_succ_self _⟩ rfl
  · obtain ⟨⟨d', k⟩, hload, hd⟩ := exists_of_map_ok hd
    cases hd
    exact (ScriptLibrary.Sound.load hsound (ScriptLibrary.sound_empty _ _ _) hload).2
  · cases hd
  · cases ha
  · exact Nat.lt_succ_of_lt (hs n hn)

/-- An engine with nothing but what is built in. -/
theorem exists_fresh : ∃ e, build {} {} = .ok e ∧ e.Sound ∧ e.registry = .builtin ∧
    e.library.waitByDefault = true ∧ e.player.document = none ∧
    e.services = .builtin (.ofConfig {}) ∧
    ∀ name d, (e.playback.shelf e.env).script name ≠ .ok d := by
  obtain ⟨e, he, hrest⟩ : ∃ e, build {} {} = .ok e ∧ e.registry = .builtin ∧
      e.library.waitByDefault = true ∧ e.player.document = none ∧
      e.services = .builtin (.ofConfig {}) ∧
      ∀ name d, (e.playback.shelf e.env).script name ≠ .ok d :=
    ⟨_, rfl, rfl, rfl, rfl, rfl, fun _ _ => nofun⟩
  refine ⟨e, he, sound_build he fun n hn => ?_, hrest⟩
  cases hn

/-- Reading a script while nothing plays. -/
theorem Sound.loadScript {e e' : Engine} (he : e.Sound) (hrest : e.player.document = none)
    {name text : String} {d : Document} (h : e.loadScript name text = (e', .ok d)) :
    e'.Sound ∧ e'.playback = { e.playback with library := e'.library } ∧ e'.env = e.env ∧
      ∀ other, (e'.playback.shelf e'.env).script other =
        if name = other then .ok d else (e.playback.shelf e.env).script other := by
  unfold Engine.loadScript replaceScript at h
  cases hi : e.library.insert e.registry name text with
  | error err =>
    rw [hi] at h
    cases h
  | ok r =>
    obtain ⟨d', k⟩ := r
    rw [hi] at h
    have hsame : ({ e with playback := { e.playback with library := k } } : Engine).scriptReplaced
        d' = { e with playback := { e.playback with library := k } } := by
      unfold scriptReplaced
      have hnone : ({ e with
          playback := { e.playback with library := k } } : Engine).player.document = none := hrest
      rw [hnone]
      rfl
    dsimp only at h
    rw [hsame] at h
    cases h
    refine ⟨⟨⟨⟨⟨Playback.shelf_sound_insert he.playback.shelf hi, he.playback.live,
      he.playback.forward, fun d i hd => ?_⟩, fun a ha => ?_⟩, he.alone, he.budget, he.cancelled,
      he.scope⟩, he.builtin⟩, rfl, rfl, Playback.shelf_insert e.env hi⟩
    · rw [show e.player.document = some d from hd] at hrest
      cases hrest
    · obtain ⟨d, c, h, hf⟩ := he.playback.active a ha
      rw [show e.player.document = some d from hf.document] at hrest
      cases hrest

end Engine

namespace Playback

/-- Dropping a built-in command in flight leaves the services as they are. -/
theorem Sound.cancelActive {env : Env} {p : Playback} (hp : Sound env p) :
    p.cancelActive = { p with player := { p.player with active := none } } := by
  unfold Playback.cancelActive
  cases ha : p.player.active with
  | none =>
    dsimp only
    rw [← ha]
  | some a =>
    obtain ⟨d, c, h, t, hf, hm, hb, ht⟩ := hp.flight ha
    have hhost := (Builtin.starts_of_begin hm hb).not_isHost
    have hcancel : a.task.cancel p.services = p.services := by
      rcases ht with ht | ⟨v, w, -, ht, -⟩
      · rw [ht]
        cases t with
        | host t => exact absurd trivial hhost
        | _ => rfl
      · rw [ht]
        rfl
    dsimp only
    rw [hcancel]
    rfl

end Playback

/-- A command of a script, before which nothing was played. -/
def Standing.opening (d : Document) (index : Nat) (s : ServiceSet) : Standing where
  document := some d
  index := if index < d.size then some index else none
  arrived := false
  busy := false
  played := 0
  services := s

namespace Engine

/-- Where a script has been started at an index and nothing was played yet. -/
structure Begun (e : Engine) (d : Document) (index : Nat) (e' : Engine) : Prop where
  sound : e'.Sound
  config : e'.config = e.config
  env : e'.env = e.env
  shelf : e'.playback.shelf e'.env = e.playback.shelf e.env
  document : (e'.playback.shelf e'.env).script d.name = .ok d
  standing : e'.playback.standing = .opening d index e.services.story
  services : e'.services = e.services
  stack : e'.stack.snapshots = []
  ready : e'.player.halted = false ∧ e'.cursor.waiting = false ∧ e'.cursor.skipping = false

theorem reapCancelled_alone {e : Engine} (h : e.transients.runs = []) : e.reapCancelled = e := by
  have hreap : ∀ c s, e.transients.reapCancelled c s = (e.transients, s) := by
    intro c s
    unfold TransientRunner.reapCancelled TransientRunner.visitAll
    rw [h]
    unfold TransientRunner.visit
    rw [← h]
  unfold reapCancelled
  rw [hreap]

/-- Everything but the scene of playback that starts a script. -/
theorem start_eq {p : Playback} (ha : p.player.active = none) (d : Document) (index : Nat) :
    (p.start d index).player = { p.player with
        cursor :=
          { script := d.name, revision := d.revision,
            index := if index < d.size then some index else none,
            autoPlaying := p.cursor.autoPlaying }
        document := some d
        halted := false
        arrivedByBranch := false
        waitElapsed := 0
        fastForward := none } ∧
      (p.start d index).services = p.services ∧ (p.start d index).manager = p.manager ∧
      (p.start d index).library = p.library ∧ (p.start d index).scopes = p.scopes := by
  have hcancel := Playback.cancelActive_of_idle ha
  unfold Playback.start Playback.setSkip
  rw [hcancel]
  by_cases hd : d.size ≤ index
  · rw [if_neg (Nat.not_lt.2 hd)]
    simp only [if_pos hd]
    split <;> exact ⟨rfl, rfl, rfl, rfl, rfl⟩
  · rw [if_pos (Nat.lt_of_not_le hd)]
    simp only [if_neg hd]
    split <;> exact ⟨rfl, rfl, rfl, rfl, rfl⟩

/-- Giving up the scope of playback. -/
theorem cancelPlaybackScope_eq {e : Engine} (he : e.Sound) :
    e.cancelPlaybackScope = { e with playback := { e.playback with
      player := { e.player with
        active := none
        scope := ⟨e.playback.scopes.next, []⟩ }
      scopes :=
        ⟨e.playback.scopes.next + 1, e.player.scope.id :: e.playback.scopes.cancelled⟩ } } := by
  have hreap : ∀ p : Playback, ({ e with playback := p } : Engine).reapCancelled =
      { e with playback := p } := fun p => reapCancelled_alone he.alone
  unfold cancelPlaybackScope onPlayback withScopes
  dsimp only
  rw [he.playback.cancelActive, hreap]
  rfl

/-- The scope that takes the place of a cancelled one is not cancelled. -/
theorem Sound.renewed {e : Engine} (he : e.Sound) :
    Cancellations.isCancelled
        ⟨e.playback.scopes.next + 1, e.player.scope.id :: e.playback.scopes.cancelled⟩
        ⟨e.playback.scopes.next, []⟩ = false ∧
      ∀ n ∈ e.player.scope.id :: e.playback.scopes.cancelled, n < e.playback.scopes.next + 1 := by
  have hfresh : ∀ n ∈ e.player.scope.id :: e.playback.scopes.cancelled,
      n < e.playback.scopes.next := by
    intro n hn
    rcases List.mem_cons.1 hn with rfl | hn
    · exact he.scope
    · exact he.cancelled n hn
  refine ⟨?_, fun n hn => Nat.lt_succ_of_lt (hfresh n hn)⟩
  simp only [Cancellations.isCancelled, List.any_cons, List.any_nil, Bool.or_false]
  rw [Bool.eq_false_iff]
  intro hc
  exact Nat.lt_irrefl _ (hfresh _ (List.contains_iff_mem.1 hc))

/-- Playback that has no command in flight, in the scope that takes the place of a cancelled one. -/
theorem Sound.reopened {e : Engine} (he : e.Sound) {q : Playback}
    (hshelf : q.shelf e.env = e.playback.shelf e.env)
    (hscopes : q.scopes =
      ⟨e.playback.scopes.next + 1, e.player.scope.id :: e.playback.scopes.cancelled⟩)
    (hscope : q.player.scope = ⟨e.playback.scopes.next, []⟩)
    (hforward : q.player.fastForward = none)
    (hplaced : q.standing.Placed (e.playback.shelf e.env)) (ha : q.player.active = none) :
    Sound { e with playback := q } := by
  have hlive : q.scopes.isCancelled q.player.scope = false := by
    rw [hscope, hscopes]
    exact he.renewed.1
  have hgrounded : q.Grounded e.env :=
    ⟨hshelf ▸ he.playback.shelf, hlive, hforward, hshelf ▸ hplaced⟩
  refine Live.sound ⟨(hgrounded.sound ha).toLive, he.alone, he.budget, ?_, ?_⟩ ha
  · show ∀ n ∈ q.scopes.cancelled, n < q.scopes.next
    rw [hscopes]
    exact he.renewed.2
  · show q.player.scope.id < q.scopes.next
    rw [hscope, hscopes]
    exact Nat.lt_succ_self _

/-- Starting a script of the shelf. -/
theorem beginPlayback_begins {e : Engine} (he : e.Sound) {d : Document}
    (hd : (e.playback.shelf e.env).script d.name = .ok d) (index : Nat) :
    Begun e d index (e.beginPlayback d index) := by
  obtain ⟨p, hp⟩ : ∃ p : Playback, p = { e.playback with
      manager := { e.playback.manager with stack := e.stack.clear }
      player := { e.player with active := none, scope := ⟨e.playback.scopes.next, []⟩ }
      scopes :=
        ⟨e.playback.scopes.next + 1, e.player.scope.id :: e.playback.scopes.cancelled⟩ } := ⟨_, rfl⟩
  have hactive : p.player.active = none := by rw [hp]
  obtain ⟨hplayer, hservices, hmanager, hlibrary, hscopes⟩ := start_eq hactive d index
  have hstart : e.beginPlayback d index = { e with playback := p.start d index } := by
    unfold beginPlayback
    rw [cancelPlaybackScope_eq he, hp]
    rfl
  have hshelf : (p.start d index).shelf e.env = e.playback.shelf e.env := by
    unfold Playback.shelf
    rw [hlibrary, hp]
  have hstanding : (p.start d index).standing = .opening d index e.services.story := by
    unfold Playback.standing Playback.cursor
    rw [hplayer, hservices, hactive, hp]
    rfl
  have hscope : (p.start d index).player.scope = ⟨e.playback.scopes.next, []⟩ := by
    rw [hplayer, hp]
  have hscopes' : (p.start d index).scopes =
      ⟨e.playback.scopes.next + 1, e.player.scope.id :: e.playback.scopes.cancelled⟩ := by
    rw [hscopes, hp]
  have hplaced : (p.start d index).standing.Placed (e.playback.shelf e.env) := by
    rw [hstanding]
    exact Standing.placed_moveTo (Standing.opening d index e.services.story) hd index
  have hforward : (p.start d index).player.fastForward = none := by rw [hplayer]
  have hidle : (p.start d index).player.active = none := by rw [hplayer, hactive]
  rw [hstart]
  refine ⟨he.reopened hshelf hscopes' hscope hforward hplaced hidle, rfl, rfl, hshelf, ?_,
    hstanding, ?_, ?_, ?_⟩
  · exact hshelf ▸ hd
  · show (p.start d index).services = e.services
    rw [hservices, hp]
    rfl
  · show (p.start d index).manager.stack.snapshots = []
    rw [hmanager, hp]
    rfl
  · show (p.start d index).player.halted = false ∧
      (p.start d index).player.cursor.waiting = false ∧
      (p.start d index).player.cursor.skipping = false
    rw [hplayer]
    exact ⟨rfl, rfl, rfl⟩

/-- Reading a script that the shelf holds leaves the shelf as it is. -/
theorem loadDocument_eq {e : Engine} (he : e.Sound) {name : String} {d : Document}
    (hd : (e.playback.shelf e.env).script name = .ok d) :
    ∃ k, e.loadDocument name =
        ({ e with playback := { e.playback with library := k } }, .ok d) ∧
      ({ e.playback with library := k } : Playback).shelf e.env = e.playback.shelf e.env ∧
      Sound { e with playback := { e.playback with library := k } } := by
  obtain ⟨⟨d', k⟩, hload, hfst⟩ := exists_of_map_ok hd
  cases hfst
  have hk := Playback.shelf_of_load (p := e.playback) hload
  refine ⟨k, ?_, hk, ⟨⟨⟨⟨?_, he.playback.live, he.playback.forward, ?_⟩, fun a ha => ?_⟩, he.alone,
    he.budget, he.cancelled, he.scope⟩, he.builtin⟩⟩
  · unfold loadDocument
    rw [show e.library.load e.source name = .ok (d', k) from hload]
  · exact hk ▸ he.playback.shelf
  · exact hk ▸ he.playback.placed
  · obtain ⟨d, c, h, hf⟩ := he.playback.active a ha
    exact ⟨d, c, h, hf.congr rfl rfl rfl⟩

theorem playFrom_begins {e : Engine} (he : e.Sound) {name : String} {d : Document}
    (hd : (e.playback.shelf e.env).script name = .ok d) {index : Nat} (hi : index ≤ d.size) :
    ∃ e', e.playFrom name index = (e', .ok ()) ∧ Begun e d index e' := by
  obtain ⟨k, hload, hk, hs⟩ := loadDocument_eq he hd
  have hname := (he.playback.shelf.staged name _ hd).1
  have hb := beginPlayback_begins hs (d := d) (by rw [hname]; exact hk ▸ hd) index
  refine ⟨_, ?_, ⟨hb.sound, hb.config, hb.env, hb.shelf.trans hk, hb.document, hb.standing,
    hb.services, hb.stack, hb.ready⟩⟩
  unfold playFrom
  rw [hload]
  dsimp only
  rw [if_neg (Nat.not_lt.2 hi)]

/-- Reading a text while nothing plays. -/
theorem loadScript_eq {e : Engine} {name text : String} {d : Document}
    (h : Document.parse e.registry e.library.waitByDefault name text = .ok d) :
    ∃ e', e.loadScript name text = (e', .ok d) := by
  unfold loadScript ScriptLibrary.insert
  rw [h]
  exact ⟨_, rfl⟩

/-- A fresh engine that starts to play a text. -/
def telling (text : String) : Option Engine :=
  (build {} {}).toOption.map fun e => ((e.loadScript "tale" text).1.playFrom "tale" 0).1

/-- A text that can be read is played by an engine that holds no other script. -/
theorem exists_telling {text : String} {d : Document}
    (h : Document.parse .builtin true "tale" text = .ok d) :
    ∃ e e' : Engine, telling text = some e' ∧ e.Sound ∧ e.services = .builtin (.ofConfig {}) ∧
      e.playFrom "tale" 0 = (e', .ok ()) ∧
      ∀ name d', (e'.playback.shelf e'.env).script name = .ok d' → d' = d := by
  obtain ⟨e₀, hbuild, hs₀, hr, hw, hd, hservices, hempty⟩ := exists_fresh
  rw [← hr, ← hw] at h
  obtain ⟨e, hload⟩ := loadScript_eq h
  obtain ⟨hs, hplayback, -, hscript⟩ := hs₀.loadScript hd hload
  have hfound : (e.playback.shelf e.env).script "tale" = .ok d :=
    (hscript "tale").trans (if_pos rfl)
  obtain ⟨e', hplay, hb⟩ := playFrom_begins hs hfound (Nat.zero_le _)
  refine ⟨e, e', ?_, hs, ?_, hplay, fun name d' hd' => ?_⟩
  · unfold telling
    rw [hbuild]
    show some ((e₀.loadScript "tale" text).1.playFrom "tale" 0).1 = some e'
    rw [hload, hplay]
  · rw [← hservices]
    show e.playback.scene.services = _
    rw [hplayback]
    rfl
  · rw [hb.shelf, hscript] at hd'
    split at hd'
    · exact (Except.ok.inj hd').symm
    · exact absurd hd' (hempty name d')

/-- Whatever starts is a script of the shelf. -/
theorem begun_of_playFrom {e e' : Engine} (he : e.Sound) {name : String} {index : Nat}
    (h : e.playFrom name index = (e', .ok ())) : ∃ d, Begun e d index e' := by
  cases hload : e.library.load e.source name with
  | error err =>
    unfold playFrom loadDocument at h
    rw [hload] at h
    cases h
  | ok r =>
    have hd : (e.playback.shelf e.env).script name = .ok r.1 :=
      congrArg (Except.map Prod.fst) hload
    by_cases hi : index ≤ r.1.size
    · obtain ⟨e₁, hplay, hb⟩ := playFrom_begins he hd hi
      rw [h] at hplay
      cases hplay
      exact ⟨r.1, hb⟩
    · unfold playFrom loadDocument at h
      rw [hload] at h
      dsimp only at h
      rw [if_pos (Nat.lt_of_not_le hi)] at h
      cases h

/-- An engine that has just started to play a text and holds no other script. -/
structure Told (text : String) (d : Document) (e : Engine) : Prop where
  telling : telling text = some e
  sound : e.Sound
  services : e.services = .builtin (.ofConfig {})
  standing : e.playback.standing = .opening d 0 e.services.story
  stack : e.stack.snapshots = []
  script : (e.playback.shelf e.env).script d.name = .ok d
  only : ∀ name d', (e.playback.shelf e.env).script name = .ok d' → d' = d

/-- A text that can be read is told. Whether something holds of it or of the engine can be
computed. -/
theorem exists_told (text : String) (check : Document → Bool) (test : Engine → Bool)
    (hread : (Document.parse .builtin true "tale" text).toOption.any check = true)
    (hrun : (telling text).any test = true) :
    ∃ d e, check d = true ∧ test e = true ∧ Told text d e := by
  obtain ⟨d, hd, hcheck⟩ := (Option.any_eq_true _ _).1 hread
  obtain ⟨e₁, he₁, htest⟩ := (Option.any_eq_true _ _).1 hrun
  have hparse := eq_ok_of_toOption hd
  obtain ⟨e, e', he', hs, hservices, hplay, honly⟩ := exists_telling hparse
  cases he'.symm.trans he₁
  obtain ⟨d', hb⟩ := begun_of_playFrom hs hplay
  cases honly _ _ hb.document
  refine ⟨d, e₁, hcheck, htest, he₁, hb.sound, hb.services.trans hservices, ?_, hb.stack,
    hb.document, honly⟩
  rw [hb.standing, hb.services]

end Engine

end Playhead
