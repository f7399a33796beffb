import Playhead.Proofs.Engine.Loading
import Playhead.Proofs.Engine.Operation
import Playhead.Proofs.Engine.Outcomes

/-!
History is well formed in every state that comes about from saves of the engine's own, and no
rollback finds a snapshot that was altered.
-/

namespace Playhead

/-- Whether an operation takes up a saved game. -/
def Operation.Loads : Operation → Prop
  | .load _ | .quickLoad => True
  | _ => False

namespace Engine

variable {e u : Engine} {slot : String} {map : StateMap} {op : Operation}

/-- Whether an engine that saves its game now puts a map into the slot. No service has a reserved
name, as those are refused. -/
structure Writes (e : Engine) (map : StateMap) : Prop where
  names : ∀ key ∈ e.services.keys, GameSave.isReserved (e.services.idOf key) = false
  saved : ∃ record m, e.playbackRecord? = some record ∧
    e.playback.manager.saveMap e.services record e.config.state.savedSteps = (m, .ok map)

/-- The states that come about if no games are loaded but those that such states have saved.
Resources and files may change at any time. -/
inductive Arises (start : Engine → Prop) (allowed : Operation → Prop) : Engine → Prop where
  | start {e : Engine} (h : start e) : Arises start allowed e
  | perform {e : Engine} {op : Operation} (h : Arises start allowed e) (ha : allowed op)
      (hop : ¬op.Loads) : Arises start allowed (e.perform op)
  | load {e u : Engine} {slot : String} (h : Arises start allowed e) (hu : Arises start allowed u)
      (hw : ∀ map, e.saves.load e.files .game slot = .ok (some map) → u.Writes map) :
      Arises start allowed (e.loadGame slot).1
  | supply {e : Engine} (h : Arises start allowed e) (resources : Resources) (files : FileTree) :
      Arises start allowed (e.supply resources files)

def Built (e : Engine) : Prop :=
  ∃ config parts, build config parts = .ok e

/-- If a save can be read, what is read of it is what it was made of. -/
theorem Writes.eq_of_ofMap (hw : u.Writes map) {save : GameSave}
    (hsave : GameSave.ofMap map = .ok save) : ∃ record, u.playbackRecord? = some record ∧
      StateMap.collect u.services .game = .ok save.records ∧ save.playback = some record ∧
      save.rollback = u.stack.tail u.config.state.savedSteps := by
  obtain ⟨record, m, hrecord, hmap⟩ := hw.saved
  exact ⟨record, hrecord, StateManager.eq_of_ofMap_saveMap hmap
    (fun records name hc hname => get?_reserved hw.names hc hname) hsave⟩

/-- Every turn but those that take up snapshots which were altered or captured later than the
position they are taken up with. -/
def inOrder : Leeway :=
  ⟨True, True, fun l played => (∀ x ∈ l, x.verify = .ok ()) ∧ ∀ x ∈ l, x.played ≤ played⟩

theorem within_of_not_loads {w : Leeway} (hv : w.veers) (hr : w.rereads) (hop : ¬op.Loads) :
    op.Within w e := by
  cases op with
  | input i =>
    cases i with
    | select index => exact fun _ _ _ => .inr hv
    | _ => exact trivial
  | load slot | quickLoad => exact absurd trivial hop
  | loadScript name text | reloadScript name => exact hr
  | _ => exact trivial

/-- The scripts at hand are as they were read, and history is in order. -/
structure Orderly (e : Engine) : Prop where
  read : e.Read
  retained : Retained e.stack.snapshots
  timely : e.bearings.Timely

theorem Orderly.turns {e' : Engine} (he : e.Orderly) (h : Turns inOrder e e') : e'.Orderly := by
  have hkeeps := h.turns.keeps
    (I := fun b => Retained b.stack.snapshots ∧ b.Timely)
    (fun b c hturn ⟨hretained, htimely⟩ =>
      ⟨hretained.turns (w := inOrder) (fun _ _ h => h.1) (.one hturn),
        htimely.turn (w := inOrder) (fun _ _ h => h.2) hretained hturn⟩)
    ⟨he.retained, he.timely⟩
  exact ⟨he.read.turns h, hkeeps.1, hkeeps.2⟩

theorem Fresh.orderly (he : e.Fresh) (hs : e.stack.size ≤ e.stack.depth) : e.Orderly := by
  have hnil : e.stack.snapshots = [] := he.stack
  refine ⟨he.read, hnil ▸ .nil, Bearings.timely_of_idle hs (fun x hx => ?_) he.active⟩
  rw [show e.bearings.stack.snapshots = [] from hnil] at hx
  cases hx

/-- What an engine in order saves was captured no later than where the save resumes. -/
theorem Orderly.played_le (hu : u.Orderly) {record : PlaybackRecord}
    (hrecord : u.playbackRecord? = some record) {x : Snapshot} (hx : x ∈ u.stack.snapshots) :
    x.played ≤ record.played := by
  obtain ⟨spot, -, rfl⟩ := Option.map_eq_some_iff.1 hrecord
  dsimp only
  split
  · rename_i hactive
    have hlt : x.played < u.cursor.played :=
      hu.timely.started x hx (Option.isSome_iff_ne_none.1 hactive)
    exact Nat.le_sub_one_of_lt hlt
  · exact hu.timely.earlier x hx

theorem Orderly.loadGame (he : e.Orderly) (hu : u.Orderly)
    (hw : ∀ map, e.saves.load e.files .game slot = .ok (some map) → u.Writes map) :
    (e.loadGame slot).1.Orderly := by
  refine he.turns (loadGame_turns he.read slot ?_)
  rintro save record ⟨map, hload, hsave, hplayback⟩
  obtain ⟨record', hrecord, -, hplayback', hrollback⟩ := (hw map hload).eq_of_ofMap hsave
  cases hplayback.symm.trans hplayback'
  have hmem : ∀ x ∈ save.rollback, x ∈ u.stack.snapshots := by
    rw [hrollback]
    exact fun x hx => (u.stack.tail_sublist _).subset hx
  exact ⟨⟨fun x hx => hu.retained.verified x (hmem x hx),
      fun x hx => hu.played_le hrecord (hmem x hx)⟩,
    fun x hx => absurd hx List.not_mem_nil, fun x hx => absurd hx List.not_mem_nil⟩

theorem Arises.orderly {start : Engine → Prop} {allowed : Operation → Prop}
    (hstart : ∀ e, start e → Built e) (h : e.Arises start allowed) : e.Orderly := by
  induction h with
  | @start e h =>
    obtain ⟨config, parts, hbuild⟩ := hstart _ h
    have hfresh := fresh_build hbuild
    have hsize : e.stack.size = 0 := congrArg List.length hfresh.stack
    exact hfresh.orderly (hsize ▸ Nat.zero_le _)
  | perform h ha hop ih =>
    exact ih.turns (perform_turns ih.read (within_of_not_loads trivial trivial hop))
  | load h hu hw ih ihu => exact ih.loadGame ihu hw
  | supply h resources files ih => exact ih.turns (supply_turns _ _ resources files)

/-- Slots in memory all of whose games were saved by states of a kind. -/
def Wrote (P : Engine → Prop) (v : SaveSlots) : Prop :=
  ∃ slots, v = .memory slots ∧
    ∀ slot map, (slots.get .game).get? slot = some map → ∃ u, P u ∧ Writes u map

variable {P : Engine → Prop} {v : SaveSlots}

theorem Wrote.load (hv : Wrote P v) {files : FileTree}
    (h : v.load files .game slot = .ok (some map)) : ∃ u, P u ∧ u.Writes map := by
  obtain ⟨slots, rfl, hwrote⟩ := hv
  obtain ⟨u, -, h⟩ := exists_of_bind_ok h
  exact hwrote slot map (Except.ok.inj h)

theorem Wrote.save (hv : Wrote P v) (files : FileTree) {scope : StateScope}
    (hmap : scope = .game → ∃ u, P u ∧ u.Writes map) :
    Wrote P (v.save files scope slot map).2.1 := by
  unfold SaveSlots.save
  cases SaveSlots.checkSlot slot with
  | error e => exact hv
  | ok u =>
    obtain ⟨slots, rfl, hwrote⟩ := hv
    refine ⟨_, rfl, fun other map' h => ?_⟩
    rw [ByScope.get_set] at h
    split at h
    · rename_i hscope
      rw [NameMap.get?_insert] at h
      split at h
      · cases h
        exact hmap hscope.symm
      · exact hwrote other map' (hscope ▸ h)
    · exact hwrote other map' h

theorem Wrote.delete (hv : Wrote P v) (files : FileTree) :
    Wrote P (v.delete files .game slot).2.1 := by
  unfold SaveSlots.delete
  cases SaveSlots.checkSlot slot with
  | error e => exact hv
  | ok u =>
    obtain ⟨slots, rfl, hwrote⟩ := hv
    refine ⟨_, rfl, fun other map' h => ?_⟩
    rw [ByScope.get_set, if_pos rfl, NameMap.get?_erase] at h
    split at h
    · cases h
    · exact hwrote other map' h

theorem spares_of_wrote (he : P e) (hv : Wrote P e.saves)
    (hnames : ∀ key ∈ e.services.keys, GameSave.isReserved (e.services.idOf key) = false) :
    op.Spares (Wrote P) e := by
  have hgame : ∀ slot, Wrote P (e.saveGame slot).1.saves := by
    intro slot
    rcases e.saves_saveGame slot with hsame | ⟨record, m, map, hrecord, hmap, hsave⟩
    · exact hsame ▸ hv
    · exact hsave ▸ hv.save e.files fun _ => ⟨e, he, hnames, record, m, hrecord, hmap⟩
  have hscope : ∀ scope slot, scope ≠ .game → Wrote P (e.saveScope scope slot).1.saves := by
    intro scope slot hne
    rcases e.saves_saveScope scope slot with hsame | ⟨map, hsave⟩
    · exact hsame ▸ hv
    · exact hsave ▸ hv.save e.files fun h => absurd h hne
  cases op with
  | save slot => exact hgame slot
  | quickSave => exact hgame _
  | delete slot => exact hv.delete e.files
  | saveGlobal => exact hscope .global _ (by decide)
  | saveSettings => exact hscope .settings _ (by decide)
  | _ => exact trivial

/-- Any operation leads on if all games in the slots were saved by such states. -/
theorem Arises.perform_wrote {start : Engine → Prop} {allowed : Operation → Prop}
    (hu : u.Arises start allowed) (hv : Wrote (Arises start allowed) u.saves) (hop : allowed op) :
    (u.perform op).Arises start allowed := by
  have hload : ∀ slot, (u.loadGame slot).1.Arises start allowed := by
    intro slot
    by_cases hmap : ∃ map, u.saves.load u.files .game slot = .ok (some map)
    · obtain ⟨map, hmap⟩ := hmap
      obtain ⟨w, hw, hwrites⟩ := hv.load hmap
      refine .load hu hw fun map' hmap' => ?_
      cases hmap.symm.trans hmap'
      exact hwrites
    · exact .load hu hu fun map h => absurd ⟨map, h⟩ hmap
  by_cases hloads : op.Loads
  · cases op with
    | load slot => exact hload slot
    | quickLoad => exact hload _
    | _ => exact hloads.elim
  · exact .perform hu hop hloads

/-- As long as the services keep their shape, none has a reserved name. -/
theorem names_of_shape {config : Config} {parts : EngineParts} (hbuild : build config parts = .ok e)
    {s : ServiceSet} (hs : s.shape = e.services.shape) :
    ∀ key ∈ s.keys, GameSave.isReserved (s.idOf key) = false := by
  intro key hkey
  refine (services_build hbuild).2.1 _ (List.mem_map.2 ⟨key, ?_, ?_⟩)
  · rwa [← ServiceSet.keys_shape, ← hs, ServiceSet.keys_shape]
  · rw [← ServiceSet.idOf_shape, ← hs, ServiceSet.idOf_shape]

/-- Without other saves, every run loads only games that it has saved itself. -/
theorem arises_performAll {config : Config} {parts : EngineParts} {e₀ : Engine}
    (hbuild : build config parts = .ok e₀) (hsaves : e₀.saves = .inMemory)
    (hcommands : ∀ h ∈ parts.commands, ∀ c t, h.begin c = .ok t → t.Tame) {l : List Operation}
    (hl : ∀ op ∈ l, op.Keeps e₀.services.shape) :
    (e₀.performAll l).Arises (· = e₀) (·.Keeps e₀.services.shape) := by
  obtain ⟨P, hP⟩ : ∃ P, P = Arises (· = e₀) (·.Keeps e₀.services.shape) := ⟨_, rfl⟩
  have htame : e₀.Tame e₀.services.shape (Wrote P) := by
    have h := tame_build hbuild hcommands
    exact ⟨h.registry, h.playback, h.runs, _, hsaves, fun slot map h => by cases h⟩
  have hrun : ∀ u : Engine, P u → u.Tame e₀.services.shape (Wrote P) → P (u.performAll l) := by
    induction l with
    | nil => exact fun u hu _ => hu
    | cons op rest ih =>
      intro u hu htame
      have hop := hl op List.mem_cons_self
      have hspares : op.Spares (Wrote P) u :=
        spares_of_wrote hu htame.saves (names_of_shape hbuild htame.playback.shape)
      refine ih (fun op h => hl op (List.mem_cons_of_mem _ h)) _ ?_ (htame.perform hop hspares)
      subst hP
      exact hu.perform_wrote htame.saves hop
  subst hP
  exact hrun e₀ (.start rfl) htame

/-- More starts and more operations. -/
theorem Arises.mono {start start' : Engine → Prop} {allowed allowed' : Operation → Prop}
    (hstart : ∀ e, start e → start' e) (hallowed : ∀ op, allowed op → allowed' op)
    (h : e.Arises start allowed) : e.Arises start' allowed' := by
  induction h with
  | start h => exact .start (hstart _ h)
  | perform h ha hop ih => exact .perform ih (hallowed _ ha) hop
  | load h hu hw ih ihu => exact .load ih ihu hw
  | supply h resources files ih => exact .supply ih resources files

/-- History as a rollback relies on it. -/
structure WellFormed (e : Engine) : Prop where
  size : e.stack.size ≤ e.stack.depth
  ordered : e.stack.snapshots.Pairwise fun x y => x.played < y.played
  /-- The newest snapshot was captured no later than where playback is, and before the command in
  flight was started. -/
  newest : ∀ x, e.stack.newest? = some x → x.played ≤ e.cursor.played ∧
    (e.player.active ≠ none → x.played < e.cursor.played)
  verified : ∀ x ∈ e.stack.snapshots, x.verify = .ok ()
  rollback : ∀ target err, (e.rollback target).2 ≠ .error (.state (.snapshot err))
  rollbackWhere : ∀ p err, (e.rollbackWhere p).2 ≠ .error (.state (.snapshot err))

/-- History is well formed in every state that comes about. -/
theorem Arises.wellFormed (h : e.Arises Built fun _ => True) : e.WellFormed := by
  have he := h.orderly fun _ h => h
  have hverified := he.retained.verified
  refine ⟨he.timely.size, he.retained.ordered, fun x hx => ?_, hverified,
    fun _ => rollbackTo_ne_altered hverified _, fun _ => rollbackTo_ne_altered hverified _⟩
  have hmem : x ∈ e.stack.snapshots := List.mem_of_getLast? hx
  exact ⟨he.timely.earlier x hmem, he.timely.started x hmem⟩

/-- A tale that is saved, told on, taken up again and told on with a command in flight. -/
def takeUp : List Operation :=
  [.loadScript "tale" "first\nsecond\n@wait 10\n", .playFrom "tale" 0, .input (.tick 0),
    .input .goOn, .input (.tick 0), .save "a", .input .goOn, .input (.tick 0), .load "a",
    .input .goOn, .input (.tick 0)]

theorem wellFormed_takeUp : ∃ e : Engine, (e.Arises Built fun _ => True) ∧ e.WellFormed ∧
    e.player.active ≠ none ∧ e.stack.snapshots.map (·.played) = [1, 2] ∧ e.cursor.played = 3 := by
  have hrun : ((build {} {}).toOption.any fun e =>
      (e.performAll takeUp).player.active.isSome ∧
        (e.performAll takeUp).stack.snapshots.map (·.played) = [1, 2] ∧
        (e.performAll takeUp).cursor.played = 3) = true := by
    decide +kernel
  obtain ⟨e₀, he₀, hcheck⟩ := (Option.any_eq_true _ _).1 hrun
  obtain ⟨hactive, hplayed, hcursor⟩ := of_decide_eq_true hcheck
  have hbuild := eq_ok_of_toOption he₀
  have hkeeps : ∀ op ∈ takeUp, op.Keeps e₀.services.shape := by
    intro op hop
    simp only [takeUp, List.mem_cons, List.not_mem_nil, or_false] at hop
    rcases hop with rfl | rfl | rfl | rfl | rfl | rfl | rfl | rfl | rfl | rfl | rfl <;>
      exact trivial
  have hsaves : e₀.saves = .inMemory := by
    cases hbuild
    rfl
  have harises : (e₀.performAll takeUp).Arises Built fun _ => True :=
    (arises_performAll hbuild hsaves (fun _ h => absurd h List.not_mem_nil) hkeeps).mono
      (fun e he => ⟨{}, {}, (show e = e₀ from he) ▸ hbuild⟩) fun _ _ => trivial
  exact ⟨_, harises, harises.wellFormed, Option.isSome_iff_ne_none.1 hactive, hplayed, hcursor⟩

end Engine

end Playhead
