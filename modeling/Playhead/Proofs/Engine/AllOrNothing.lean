import Playhead.Proofs.Engine.Recorded

/-!
A rollback is all or nothing: either it puts back the snapshot that was found as it was recorded, or
it leaves everything as it is but the scripts that were read.
-/

namespace Playhead

/-- A snapshot that records finite numbers only: so does every game that has its records. -/
def Snapshot.Finite (σ : ServiceSet) (x : Snapshot) : Prop :=
  ∀ s : ServiceSet, s.shape = σ → StateMap.collect s .game = .ok x.records → s.Storable

/-- Whether records hold no variable and no call. -/
def StateMap.isBlank (m : StateMap) : Bool :=
  (m.get? "variables").any (fun j => j.record?.any (·.isEmpty)) &&
    (m.get? "call-stack").any (fun j => j.list?.any (·.isEmpty))

/-- What is recorded of finite numbers is recorded of no others. -/
theorem ServiceSet.Storable.of_record {s t : ServiceSet} (ht : t.Storable)
    (hvariables : s.variableStore.isSome →
      s.record? .game .variableStore = t.record? .game .variableStore)
    (hcalls : s.callStack.isSome → s.record? .game .callStack = t.record? .game .callStack) :
    s.Storable := by
  refine ⟨fun v hv => ?_, fun k hk => ?_⟩
  · have hrecord := hvariables (hv ▸ rfl)
    unfold record? at hrecord
    rw [hv] at hrecord
    obtain ⟨u, hu, hj⟩ := Option.map_eq_some_iff.1 hrecord.symm
    have hj : Value.mapToJson u.game = Value.mapToJson v.game := hj
    have hread := Value.mapOfJson?_mapToJson (ht.finite u hu)
    rw [hj] at hread
    exact Value.finite_of_mapOfJson? hread
  · have hrecord := hcalls (hk ▸ rfl)
    unfold record? at hrecord
    rw [hk] at hrecord
    obtain ⟨l, hl, hj⟩ := Option.map_eq_some_iff.1 hrecord.symm
    have hread := CallStack.ofJson?_toJson (ht.calls l hl)
    rw [hj] at hread
    exact CallStack.eq_of_ofJson? hread ▸ ht.calls l hl

namespace Snapshot

variable {s t : ServiceSet} {x : Snapshot}

theorem get?_records (ht : t.Exact) (hs : s.shape = t.shape)
    (h : StateMap.collect s .game = .ok x.records) {key : ServiceKey}
    (hkey : key ∈ s.inScope .game) : x.records.get? (s.idOf key) = s.record? .game key := by
  have hnodup : ((s.inScope .game).map s.idOf).Nodup :=
    (ht.of_shape hs).distinct.sublist (List.filter_sublist.map _)
  obtain ⟨j, hj, hget⟩ := StateMap.get?_of_collectKeys h hnodup key hkey
  exact hget.trans hj.symm

/-- A snapshot of finite numbers records finite numbers. -/
theorem finite_of_storable (ht : t.Exact) (hstorable : t.Storable)
    (hx : StateMap.collect t .game = .ok x.records) : x.Finite t.shape := by
  intro s hs hcollect
  have hsame : ∀ key ∈ s.inScope .game, s.record? .game key = t.record? .game key := by
    intro key hkey
    have hkey' : key ∈ t.inScope .game := by
      rwa [← ServiceSet.inScope_shape, ← hs, ServiceSet.inScope_shape]
    have hid : s.idOf key = t.idOf key := by
      rw [← ServiceSet.idOf_shape, hs, ServiceSet.idOf_shape]
    rw [← get?_records ht hs hcollect hkey, hid, get?_records ht rfl hx hkey']
  obtain ⟨hvariables, -, -, hcalls⟩ := s.mem_inScope_game_iff
  exact hstorable.of_record (fun h => hsame _ (hvariables.2 h)) fun h => hsame _ (hcalls.2 h)

theorem finite_of_isBlank (ht : t.Exact) (h : x.records.isBlank = true) : x.Finite t.shape := by
  intro s hs hcollect
  obtain ⟨hvariables, -, -, hcalls⟩ := s.mem_inScope_game_iff
  obtain ⟨hv, hk⟩ := Bool.and_eq_true_iff.1 h
  refine ⟨fun v hsv e he => ?_, fun k hsk f hf => ?_⟩
  · have hget : x.records.get? "variables" = some (Value.mapToJson v.game) := by
      refine (get?_records ht hs hcollect (hvariables.2 (hsv ▸ rfl))).trans ?_
      unfold ServiceSet.record?
      rw [hsv]
      rfl
    rw [hget] at hv
    have hnone : v.game.entries = [] := List.map_eq_nil_iff.1 (List.isEmpty_iff.1 hv)
    exact absurd (hnone ▸ he) List.not_mem_nil
  · have hget : x.records.get? "call-stack" = some k.toJson := by
      refine (get?_records ht hs hcollect (hcalls.2 (hsk ▸ rfl))).trans ?_
      unfold ServiceSet.record?
      rw [hsk]
      rfl
    rw [hget] at hk
    have hnone : k.frames = [] := List.map_eq_nil_iff.1 (List.isEmpty_iff.1 hk)
    exact absurd (hnone ▸ hf) List.not_mem_nil

end Snapshot

namespace Engine

variable {σ : ServiceSet} {D : Document → Prop} {K : SaveSlots → Prop} {e e₀ : Engine}

/-- Whether a run from one engine to another, and from there to a third, comes upon no two scripts
that share both their name and their revision. -/
def ToldApart (e₀ e e' : Engine) : Prop :=
  ∃ D : Document → Prop,
    (∀ d₁ d₂, D d₁ → D d₂ → d₁.name = d₂.name → d₁.revision = d₂.revision → d₁ = d₂) ∧
      e.ArisesAmong D (· = e₀) (·.Keeps e₀.services.shape) ∧ e'.HoldsOnly D

/-- What a snapshot at a position makes of an engine whose history it is part of. -/
structure PutBack (e₀ e : Engine) (position : Nat) (x : Snapshot) (e' : Engine) : Prop where
  game : StateMap.collect e'.services .game = .ok x.records
  /-- Scripts are told apart by name and revision only. -/
  spot : ToldApart e₀ e e' → e'.cursor.spot? = some x.spot
  played : e'.cursor.played = x.played
  idle : e'.player.active = none
  stack : e'.stack.snapshots = e.stack.snapshots.take (position + 1)

/-- All that can become of a rollback to what was found on the stack. -/
structure AllOrNothing (e₀ e : Engine) (found : Except Unavailable Nat)
    (r : Engine × Except EngineError RollbackOutcome) : Prop where
  unavailable : ∀ why, r.2 = .ok (.unavailable why) → ∃ k, r.1 = e.withLibrary k
  completed : ∀ spot, r.2 = .ok (.completed spot) → ∃ position x, found = .ok position ∧
    e.stack.get? position = some x ∧ spot = x.spot ∧ PutBack e₀ e position x r.1
  failed : ∀ err, r.2 = .error err → r.1 = e ∧ ∃ why, err = .jump (.library why)

/-- Putting back a snapshot of the services there are. -/
theorem restoreSnapshot_ok (he : e.Tame σ K) {x : Snapshot} {t : ServiceSet} (ht : t.Storable)
    (hhost : t.host = []) (hn : t.ids.Nodup) (hshape : t.shape = σ)
    (hx : StateMap.collect t .game = .ok x.records) (hverify : x.verify = .ok ())
    (position : Nat) (d : Document) :
    ∃ e', e.restoreSnapshot position x d = (e', .ok (.completed x.spot)) ∧
      StateMap.collect e'.services .game = .ok x.records ∧
      e'.bearings = { ({ e.bearings with
        active := none
        stack := e.stack.truncateAfter position } : Bearings).moveTo d x.spot.index with
          played := x.played } := by
  obtain ⟨u, hu⟩ : ∃ u, u = ((e.emit (.rollbackStarted e.cursor.spot? x.spot)).cancelPlaybackScope
      ).onPlayback (·.setSynchronizing true) := ⟨_, rfl⟩
  have htame : u.Tame σ K := by
    have hemit : (e.emit (.rollbackStarted e.cursor.spot? x.spot)).Tame σ K :=
      he.withPlayback (he.playback.congr rfl rfl)
    rw [hu]
    exact hemit.cancelPlaybackScope.withPlayback (hemit.cancelPlaybackScope.playback.congr rfl rfl)
  have hub : u.bearings = { e.bearings with active := none } := by
    rw [hu]
    exact (e.emit (.rollbackStarted e.cursor.spot? x.spot)).bearings_cancelPlaybackScope
  obtain ⟨s, happly, hs⟩ := StateMap.exists_apply (s := u.services) ht hhost hn
    (htame.playback.shape.trans hshape.symm) hx
  have hrestore : StateManager.restore u.services x = (s, .ok ()) := by
    unfold StateManager.restore
    simp only [hverify, happly]
  obtain ⟨v, hv⟩ : ∃ v, v = (u.withServices s).withStack (u.stack.truncateAfter position) :=
    ⟨_, rfl⟩
  have hvb : v.bearings = { e.bearings with
      active := none
      stack := e.stack.truncateAfter position } := by
    rw [hv]
    exact congrArg (fun b : Bearings => { b with stack := b.stack.truncateAfter position }) hub
  have hidle : v.player.active = none := congrArg Bearings.active hvb
  refine ⟨(v.onPlayback (·.restorePosition d x.spot.index x.played x.waiting)).onPlayback
    (·.setSynchronizing false), ?_, ?_, ?_⟩
  · unfold restoreSnapshot
    dsimp only
    rw [← hu, hrestore, hv]
  · have hservices : (v.playback.restorePosition d x.spot.index x.played
        x.waiting).services = s := by
      have hcancel : v.playback.cancelActive = v.playback := Playback.cancelActive_of_idle hidle
      rw [Playback.services_restorePosition, hcancel, hv]
      rfl
    exact (congrArg (StateMap.collect · .game) hservices).trans hs
  · rw [← hvb]
    exact bearings_restorePosition hidle d x.spot.index x.played x.waiting

theorem loadDocument_held (he : e.Read) {name : String} {k : ScriptLibrary} {d : Document}
    (h : e.loadDocument name = (e.withLibrary k, .ok d)) :
    d.name = name ∧ k.get? d.name = some d := by
  unfold loadDocument at h
  split at h
  · rename_i d' k' hload
    have hl : e.library.Sound e.source.registry := he.scripts.library
    obtain ⟨-, hname, hget⟩ := hl.load_reads he.registry hload
    obtain ⟨hengine, hfound⟩ := Prod.mk.inj h
    obtain rfl : d' = d := Except.ok.inj hfound
    obtain rfl : k' = k := congrArg Engine.library hengine
    exact ⟨hname, hname.symm ▸ hget⟩
  · cases (Prod.mk.inj h).2

theorem exact_build {config : Config} {parts : EngineParts} (hbuild : build config parts = .ok e₀)
    (hhost : parts.services = []) : e₀.services.Exact ∧ e₀.services.host = [] := by
  obtain ⟨hn, -, hnone⟩ := services_build hbuild
  rw [hhost] at hnone
  exact ⟨⟨hn, fun s hs => by rw [hnone] at hs; cases hs⟩, hnone⟩

theorem Arises.allOrNothing {config : Config} {parts : EngineParts}
    (hbuild : build config parts = .ok e₀) (hhost : parts.services = [])
    (hcommands : ∀ h ∈ parts.commands, ∀ c t, h.begin c = .ok t → t.Tame)
    (he : e.Arises (· = e₀) (·.Keeps e₀.services.shape))
    (hfinite : ∀ x ∈ e.stack.snapshots, x.Finite e₀.services.shape)
    (found : Except Unavailable Nat) : AllOrNothing e₀ e found (e.rollbackTo found) := by
  have horderly := he.orderly fun e he => ⟨config, parts, (show e = e₀ from he) ▸ hbuild⟩
  have hrecords := (he.among (D := fun _ => True) fun _ => trivial).records hbuild hcommands
  obtain ⟨hexact, hnone⟩ := exact_build hbuild hhost
  have hback := e.rollsBack found
  generalize e.rollbackTo found = r at hback ⊢
  cases hback with
  | unavailable k why => exact ⟨fun _ _ => ⟨k, rfl⟩, nofun, nofun⟩
  | unread hfound hx why =>
    refine ⟨nofun, nofun, fun err h => ⟨rfl, why, ?_⟩⟩
    cases h
    rfl
  | @restore position x k d hfound hx hload hrevision hindex =>
    have hmem : x ∈ e.stack.snapshots := List.mem_of_getElem? hx
    obtain ⟨t, hshape, hcollect⟩ := (hrecords.snapshots x hmem).collected
    have htame : (e.withLibrary k).Tame e₀.services.shape fun _ => True :=
      hrecords.tame.withPlayback (hrecords.tame.playback.congr rfl rfl)
    have hdistinct : t.ids.Nodup := (hexact.of_shape hshape).distinct
    obtain ⟨e', he', hgame, hbearings⟩ := restoreSnapshot_ok htame
      (hfinite x hmem t hshape hcollect) (ServiceSet.host_eq_nil_of_shape hshape hnone) hdistinct
      hshape hcollect (horderly.retained.verified x hmem) position d
    rw [he']
    obtain ⟨hname, hget⟩ := loadDocument_held horderly.read hload
    refine ⟨nofun, fun spot h => ?_, nofun⟩
    cases h
    refine ⟨position, x, hfound, hx, rfl, hgame, fun ⟨D', htold, hamong, hheld⟩ => ?_,
      congrArg Bearings.played hbearings, congrArg Bearings.active hbearings,
      congrArg (fun b : Bearings => b.stack.snapshots) hbearings⟩
    -- The script that was read is the one the snapshot was captured in.
    have hrecorded := hamong.records hbuild hcommands
    obtain ⟨d', hd', hscript, hrev, hlt⟩ := (hrecorded.snapshots x hmem).taken
    have hlibrary : e'.library = k := congrArg Bearings.library hbearings
    have hd : D' d := hheld d ((congrArg (·.get? d.name) hlibrary).trans hget)
    obtain rfl := htold d d' hd hd' (hname.trans hscript) (hrevision.trans hrev)
    have hindex' : e'.cursor.index = some x.spot.index :=
      (congrArg Bearings.index hbearings).trans (if_pos hlt)
    have hname' : e'.cursor.script = d.name := congrArg Bearings.script hbearings
    unfold Cursor.spot?
    rw [hindex', hname', hname]
    rfl

/-- A rollback over services of the engine's own is all or nothing, if every number that was stored
is finite. The cursor is at the spot of the snapshot unless two scripts were held that share both
their name and their revision. -/
theorem rollback_allOrNothing {config : Config} {parts : EngineParts}
    (hbuild : build config parts = .ok e₀) (hhost : parts.services = [])
    (hcommands : ∀ h ∈ parts.commands, ∀ c t, h.begin c = .ok t → t.Tame)
    (he : e.Arises (· = e₀) (·.Keeps e₀.services.shape))
    (hfinite : ∀ x ∈ e.stack.snapshots, x.Finite e₀.services.shape) :
    (∀ target, AllOrNothing e₀ e (e.playback.manager.findTarget target e.cursor.played)
      (e.rollback target)) ∧
    ∀ p, AllOrNothing e₀ e (e.playback.manager.findWhere e.cursor.played p) (e.rollbackWhere p) :=
  ⟨fun _ => he.allOrNothing hbuild hhost hcommands hfinite _,
    fun _ => he.allOrNothing hbuild hhost hcommands hfinite _⟩

theorem library_build {config : Config} {parts : EngineParts} (h : build config parts = .ok e)
    (name : String) : e.library.get? name = none := by
  obtain ⟨registry, services, -, -, -, rfl⟩ := build_eq_ok h
  rfl

/-- Scripts are told apart if only the first operation of a run reads any. -/
theorem toldApart_performAll {config : Config} {parts : EngineParts}
    (hbuild : build config parts = .ok e₀) {first : Operation} {l : List Operation}
    (hfirst : first.Keeps e₀.services.shape ∧ ¬first.Loads)
    (hl : ∀ op ∈ l, op.Keeps e₀.services.shape ∧ ¬op.Loads ∧ ¬op.Rereads) (last : Operation)
    (hlast : ¬last.Rereads) :
    ToldApart e₀ (e₀.performAll (first :: l)) ((e₀.performAll (first :: l)).perform last) := by
  obtain ⟨u, hu⟩ : ∃ u, u = e₀.perform first := ⟨_, rfl⟩
  obtain ⟨e, he⟩ : ∃ e, e = u.performAll l := ⟨_, rfl⟩
  have hread : u.Read := by
    have h := (fresh_build hbuild).read
    rw [hu]
    exact h.turns (performAll_free h [first])
  have hrun : Turns (.free False) u e := by
    rw [he]
    exact performAll_turns hread fun before op after heq =>
      within_free (hl op (heq ▸ List.mem_append_right _ List.mem_cons_self)).2.2
  have hend : Turns (.free False) e (e.perform last) :=
    perform_turns (hread.turns hrun) (within_free hlast)
  rw [performAll_cons, ← hu, ← he]
  obtain ⟨D, hD⟩ : ∃ D : Document → Prop, D = fun d =>
    (e.perform last).library.get? d.name = some d := ⟨_, rfl⟩
  have hheld : ∀ {v : Engine}, Turns (.free False) v (e.perform last) → v.HoldsOnly D := by
    intro v hturns d hd
    rw [hD]
    exact hturns.turns.held id hd
  refine ⟨D, fun d₁ d₂ h₁ h₂ hname _ => ?_, ?_, hheld (.refl _)⟩
  · rw [hD] at h₁ h₂
    rw [hname] at h₁
    exact Option.some.inj (h₁.symm.trans h₂)
  · have hstart : e₀.HoldsOnly D := fun d hd => by
      cases (library_build hbuild d.name).symm.trans hd
    have hu' : u.ArisesAmong D (· = e₀) (·.Keeps e₀.services.shape) := by
      rw [hu]
      exact .perform (.start rfl hstart) hfirst.1 hfirst.2 (hu ▸ hheld (hrun.trans hend))
    rw [he]
    exact hu'.performAll hread hl (he ▸ hheld hend)

/-- A tale that was told to its last line goes back to the one before. -/
theorem rollback_allOrNothing_tale : ∃ e₀ e e' position x, build {} {} = .ok e₀ ∧
    e = e₀.performAll (threeLines :: tellOn) ∧ e.stack.get? position = some x ∧
    e.rollback .previous = (e', .ok (.completed x.spot)) ∧ PutBack e₀ e position x e' ∧
    e.cursor.spot? = some ⟨"tale", 2⟩ ∧ e'.cursor.spot? = some ⟨"tale", 1⟩ := by
  have hrun : ((build {} {}).toOption.any fun e =>
      let t := e.performAll (threeLines :: tellOn)
      (t.stack.snapshots.all (·.records.isBlank)) ∧ t.cursor.spot? = some ⟨"tale", 2⟩ ∧
        (t.rollback .previous).2.toOption = some (.completed ⟨"tale", 1⟩)) = true := by
    decide +kernel
  obtain ⟨e₀, he₀, hcheck⟩ := (Option.any_eq_true _ _).1 hrun
  obtain ⟨hblank, hspot, hback⟩ := of_decide_eq_true hcheck
  have hbuild := eq_ok_of_toOption he₀
  have hkeeps : ∀ op ∈ tellOn, op.Keeps e₀.services.shape ∧ ¬op.Loads ∧ ¬op.Rereads := by
    intro op hop
    simp only [tellOn, List.mem_cons, List.not_mem_nil, or_false] at hop
    rcases hop with rfl | rfl | rfl | rfl <;> exact ⟨trivial, id, id⟩
  obtain ⟨e, he⟩ : ∃ e, e = e₀.performAll (threeLines :: tellOn) := ⟨_, rfl⟩
  have hfirst : threeLines.Keeps e₀.services.shape ∧ ¬threeLines.Loads := ⟨trivial, id⟩
  have htold : ToldApart e₀ e (e.rollback .previous).1 := by
    rw [he]
    exact toldApart_performAll hbuild hfirst hkeeps (.rollback .previous) id
  obtain ⟨D, hD, hamong, hheld⟩ := htold
  rw [← he] at hblank hspot hback
  have hfinite : ∀ x ∈ e.stack.snapshots, x.Finite e₀.services.shape := fun x hx =>
    Snapshot.finite_of_isBlank (exact_build hbuild rfl).1 (List.all_eq_true.1 hblank x hx)
  have hall := rollback_allOrNothing hbuild rfl (fun _ h => absurd h List.not_mem_nil)
    hamong.arises hfinite
  obtain ⟨position, x, -, hx, hxs, hput⟩ :=
    (hall.1 .previous).completed _ (eq_ok_of_toOption hback)
  refine ⟨e₀, e, (e.rollback .previous).1, position, x, hbuild, he, hx,
    Prod.ext rfl ((eq_ok_of_toOption hback).trans (by rw [hxs])), hput, hspot, ?_⟩
  exact (hput.spot ⟨D, hD, hamong, hheld⟩).trans (congrArg some hxs.symm)

/-- A run in which the script that played is replaced by a shorter one of the same revision, which
playback does not notice. -/
def shorten : List Operation :=
  [.loadScript "tale" "We\nvRVsv", .playFrom "tale" 0, .input (.tick 0), .input .goOn,
    .input (.tick 0), .loadScript "tale" "fOEUSb\n"]

/-- The rollback is completed, but the script is over, while the snapshot was captured at a
command. -/
theorem rollback_elsewhere : ∃ (e₀ e e' : Engine) (x : Snapshot), build {} {} = .ok e₀ ∧
    e.Arises (· = e₀) (·.Keeps e₀.services.shape) ∧
    (∀ y ∈ e.stack.snapshots, y.Finite e₀.services.shape) ∧ e.stack.get? 0 = some x ∧
    e.rollback (.position 0) = (e', .ok (.completed x.spot)) ∧ x.spot = ⟨"tale", 1⟩ ∧
    e'.cursor.spot? = none := by
  have hrun : ((build {} {}).toOption.any fun e =>
      let t := e.performAll shorten
      (t.stack.snapshots.all (·.records.isBlank)) ∧
        (t.stack.get? 0).map (·.spot) = some ⟨"tale", 1⟩ ∧
        (t.rollback (.position 0)).2.toOption = some (.completed ⟨"tale", 1⟩) ∧
        (t.rollback (.position 0)).1.cursor.spot? = none) = true := by
    decide +kernel
  obtain ⟨e₀, he₀, hcheck⟩ := (Option.any_eq_true _ _).1 hrun
  obtain ⟨hblank, hspot, hback, hafter⟩ := of_decide_eq_true hcheck
  have hbuild := eq_ok_of_toOption he₀
  have hkeeps : ∀ op ∈ shorten, op.Keeps e₀.services.shape := by
    intro op hop
    simp only [shorten, List.mem_cons, List.not_mem_nil, or_false] at hop
    rcases hop with rfl | rfl | rfl | rfl | rfl | rfl <;> exact trivial
  have hsaves : e₀.saves = .inMemory := by
    cases hbuild
    rfl
  obtain ⟨x, hx, hxs⟩ := Option.map_eq_some_iff.1 hspot
  refine ⟨e₀, _, _, x, hbuild,
    arises_performAll hbuild hsaves (fun _ h => absurd h List.not_mem_nil) hkeeps,
    fun y hy => Snapshot.finite_of_isBlank (exact_build hbuild rfl).1
      (List.all_eq_true.1 hblank y hy), hx, ?_, hxs, hafter⟩
  rw [hxs]
  exact Prod.ext rfl (eq_ok_of_toOption hback)

end Engine

end Playhead
