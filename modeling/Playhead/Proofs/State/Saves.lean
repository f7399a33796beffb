import Playhead.Proofs.Except
import Playhead.Proofs.State.Records
import Playhead.Save.Slots
import Playhead.State.Manager

/-!
A game save is read back in its parts, from a map as from a slot that is kept in memory.
-/

namespace Playhead

namespace NameMap

variable {α : Type}

theorem get?_filter (m : NameMap α) (p : String → Bool) (name : String) :
    (m.filter fun k _ => p k).get? name = if p name then m.get? name else none := by
  cases hp : p name with
  | true =>
    rw [if_pos rfl]
    refine Option.ext fun v => ?_
    rw [get?_eq_some_iff, get?_eq_some_iff]
    unfold filter
    rw [List.mem_filter]
    simp [hp]
  | false =>
    rw [if_neg Bool.false_ne_true]
    refine Option.eq_none_iff_forall_not_mem.2 fun v hv => ?_
    have hmem := get?_eq_some_iff.1 hv
    unfold filter at hmem
    rw [List.mem_filter] at hmem
    simp [hp] at hmem

/-- A filter that keeps every name of a map drops what was added under other names. -/
theorem filter_eq {m n : NameMap α} {p : String → Bool}
    (hm : ∀ name, p name = true → n.get? name = m.get? name)
    (hp : ∀ name, p name = false → m.get? name = none) : (n.filter fun k _ => p k) = m := by
  apply ext_get?
  intro name
  rw [get?_filter]
  cases h : p name with
  | true => exact hm name h
  | false => exact (hp name h).symm

end NameMap

theorem word?_revision (r : UInt64) : (Json.int r.toNat).word? = some r.toNat :=
  word?_int r.toNat_lt

theorem PlaybackRecord.ofJson?_toJson {p : PlaybackRecord}
    (hi : p.spot.index < Decimal.twoTo 64) (hp : p.played < Decimal.twoTo 64) :
    ofJson? p.toJson = some p := by
  obtain ⟨spot, revision, played, waiting⟩ := p
  unfold ofJson? toJson
  rw [fields?_ofFields]
  simp [NameMap.ofList, NameMap.get?_insert, NameMap.get?_empty, Spot.ofJson?_toJson hi,
    word?_int hp, word?_revision, Json.bool?]

theorem PlaybackRecord.eq_of_ofJson? {p q : PlaybackRecord} (h : ofJson? p.toJson = some q) :
    q = p := by
  obtain ⟨spot, revision, played, waiting⟩ := p
  unfold ofJson? toJson at h
  rw [fields?_ofFields] at h
  simp [NameMap.ofList, NameMap.get?_insert, NameMap.get?_empty, word?_revision, Json.bool?] at h
  obtain ⟨spot', hspot, h⟩ := Option.bind_eq_some_iff.1 h
  obtain ⟨played', hplayed, h⟩ := Option.bind_eq_some_iff.1 h
  cases h
  rw [Spot.eq_of_ofJson? hspot, eq_of_word? hplayed]

/-- Whether the numbers of a snapshot fit in the words that they are kept in. -/
structure Snapshot.Fits (x : Snapshot) : Prop where
  version : x.version < Decimal.twoTo 32
  index : x.spot.index < Decimal.twoTo 64
  played : x.played < Decimal.twoTo 64

theorem Snapshot.ofJson?_toJson {x : Snapshot} (h : x.Fits) : ofJson? x.toJson = some x := by
  obtain ⟨hversion, hindex, hplayed⟩ := h
  obtain ⟨version, spot, revision, played, waiting, allowed, records, checksum⟩ := x
  have hversion' : (Json.int version).below? (Decimal.twoTo 32) = some version := by
    unfold Json.below? Json.nat?
    simp [show version < Decimal.twoTo 32 from hversion]
  have hrecords : (Json.ofMap records).map? = some records :=
    congrArg some records.ofList_entries
  unfold ofJson? toJson fields
  simp only [List.map_cons, List.map_nil, reduceIte, String.reduceEq]
  rw [fields?_ofFields]
  simp [NameMap.ofList, NameMap.get?_insert, NameMap.get?_empty, Spot.ofJson?_toJson hindex,
    word?_int hplayed, word?_revision, hversion', hrecords]

theorem Snapshot.eq_of_ofJson? {x y : Snapshot} (h : ofJson? x.toJson = some y) : y = x := by
  obtain ⟨version, spot, revision, played, waiting, allowed, records, checksum⟩ := x
  have hrecords : (Json.ofMap records).map? = some records :=
    congrArg some records.ofList_entries
  unfold ofJson? toJson fields at h
  simp only [List.map_cons, List.map_nil, reduceIte, String.reduceEq] at h
  rw [fields?_ofFields] at h
  simp [NameMap.ofList, NameMap.get?_insert, NameMap.get?_empty, word?_revision, hrecords] at h
  obtain ⟨version', hversion, h⟩ := Option.bind_eq_some_iff.1 h
  obtain ⟨spot', hspot, h⟩ := Option.bind_eq_some_iff.1 h
  obtain ⟨played', hplayed, h⟩ := Option.bind_eq_some_iff.1 h
  cases h
  rw [eq_of_below? hversion, Spot.eq_of_ofJson? hspot, eq_of_word? hplayed]

namespace GameSave

theorem readSnapshots_map {l : List Snapshot} (h : ∀ x ∈ l, x.Fits) :
    readSnapshots (.list (l.map Snapshot.toJson)) = some l :=
  mapM_map_eq fun x hx => Snapshot.ofJson?_toJson (h x hx)

theorem verifyAll_eq_ok {l : List Snapshot} :
    verifyAll l = .ok () ↔ ∀ x ∈ l, x.verify = .ok () := by
  induction l with
  | nil => exact ⟨fun _ x hx => absurd hx List.not_mem_nil, fun _ => rfl⟩
  | cons x rest ih =>
    rw [List.forall_mem_cons, ← ih]
    constructor
    · intro h
      obtain ⟨_, hx, hrest⟩ := exists_of_bind_ok h
      exact ⟨hx, hrest⟩
    · rintro ⟨hx, hrest⟩
      unfold verifyAll
      rw [hx]
      exact hrest

/-- The snapshots that are read of a save pass their own check. -/
theorem verify_of_ofMap {map : StateMap} {save : GameSave} (h : ofMap map = .ok save) :
    ∀ x ∈ save.rollback, x.verify = .ok () := by
  obtain ⟨playback, -, h⟩ := exists_of_bind_ok h
  obtain ⟨rollback, -, h⟩ := exists_of_bind_ok h
  obtain ⟨u, hverify, h⟩ := exists_of_bind_ok h
  cases h
  exact verifyAll_eq_ok.1 (exists_of_mapError_ok hverify)

theorem isReserved_id : isReserved PlaybackRecord.id = true := by decide

theorem isReserved_rollbackId : isReserved rollbackId = true := by decide

theorem readRecord_of_get? {α : Type} {map : StateMap} {id : String} {read : Json → Option α}
    {j : Json} {a : α} (hj : map.get? id = some j) (ha : read j = some a) :
    readRecord map id read = .ok (some a) := by
  unfold readRecord
  rw [hj]
  simp only [ha]

theorem readRecord_ok {α : Type} {map : StateMap} {id : String} {read : Json → Option α}
    {j : Json} {found : Option α} (hj : map.get? id = some j)
    (h : readRecord map id read = .ok found) : ∃ a, read j = some a ∧ found = some a := by
  unfold readRecord at h
  rw [hj] at h
  dsimp only at h
  split at h
  · rename_i a ha
    cases h
    exact ⟨a, ha, rfl⟩
  · cases h

/-- A map whose reserved records can be read, and whose other records are those of a game. -/
theorem ofMap_eq (rollback : Option (List Snapshot)) {map records : StateMap}
    {record : PlaybackRecord}
    (hplayback : readRecord map PlaybackRecord.id PlaybackRecord.ofJson? = .ok (some record))
    (hrollback : readRecord map rollbackId readSnapshots = .ok rollback)
    (hverify : ∀ x ∈ rollback.getD [], x.verify = .ok ())
    (hsame : ∀ name, isReserved name = false → map.get? name = records.get? name)
    (hfree : ∀ name, isReserved name = true → records.get? name = none) :
    ofMap map = .ok ⟨records, some record, rollback.getD []⟩ := by
  have hfilter : (map.filter fun name _ => !isReserved name) = records :=
    NameMap.filter_eq (fun name h => hsame name (by simpa using h))
      fun name h => hfree name (by simpa using h)
  unfold ofMap
  rw [hplayback, hrollback, hfilter]
  show (verifyAll (rollback.getD [])).mapError StateError.snapshot >>= _ = _
  rw [verifyAll_eq_ok.2 hverify]
  rfl

end GameSave

namespace RollbackStack

variable {s : RollbackStack}

theorem tail_sublist (s : RollbackStack) (count : Nat) : (s.tail count).Sublist s.snapshots :=
  List.drop_sublist _ _

theorem tail_eq_nil {count : Nat} (h : ¬(0 < count && !s.snapshots.isEmpty) = true) :
    s.tail count = [] := by
  unfold tail size
  rw [List.drop_eq_nil_iff]
  cases hs : s.snapshots with
  | nil => exact Nat.zero_le _
  | cons x rest =>
    rw [hs] at h
    have hcount : count = 0 := by simpa using h
    rw [hcount]
    exact Nat.le_refl _

end RollbackStack

namespace StateManager

/-- The map that a game is saved as: its records, where it resumes and its newest snapshots, if
there are any. -/
structure Saves (m : StateManager) (s : ServiceSet) (record : PlaybackRecord) (steps : Nat)
    (map records : StateMap) : Prop where
  collected : StateMap.collect s .game = .ok records
  playback : map.get? PlaybackRecord.id = some record.toJson
  rollback : map.get? GameSave.rollbackId =
      some (.list ((m.stack.tail steps).map Snapshot.toJson)) ∨
    map.get? GameSave.rollbackId = none ∧ m.stack.tail steps = []
  same : ∀ name, GameSave.isReserved name = false → map.get? name = records.get? name

theorem saves_saveMap {m n : StateManager} {s : ServiceSet} {record : PlaybackRecord}
    {steps : Nat} {map : StateMap} (h : m.saveMap s record steps = (n, .ok map))
    (hnames : ∀ records name, StateMap.collect s .game = .ok records →
      GameSave.isReserved name = true → records.get? name = none) :
    ∃ records, n = m.remember .game records ∧ m.Saves s record steps map records := by
  unfold saveMap store at h
  cases hr : StateMap.collect s .game with
  | error e =>
    rw [hr] at h
    cases h
  | ok records =>
    rw [hr] at h
    dsimp only at h
    have hne : PlaybackRecord.id ≠ GameSave.rollbackId := by decide
    have hother : ∀ {id name : String}, GameSave.isReserved id = true →
        GameSave.isReserved name = false → id ≠ name := by
      rintro id _ hid hname rfl
      exact absurd (hid.symm.trans hname) (by decide)
    have hplayback : (records.insert PlaybackRecord.id record.toJson).get? PlaybackRecord.id =
        some record.toJson := by
      rw [NameMap.get?_insert, if_pos rfl]
    have hsame : ∀ name, GameSave.isReserved name = false →
        (records.insert PlaybackRecord.id record.toJson).get? name = records.get? name := by
      intro name hname
      rw [NameMap.get?_insert, if_neg (hother GameSave.isReserved_id hname)]
    have hstack : (m.remember .game records).stack = m.stack := rfl
    rw [hstack] at h
    refine ⟨records, ?_⟩
    split at h
    · cases h
      refine ⟨rfl, hr, ?_, .inl ?_, fun name hname => ?_⟩
      · rw [NameMap.get?_insert, if_neg hne.symm, hplayback]
      · rw [NameMap.get?_insert, if_pos rfl]
      · rw [NameMap.get?_insert, if_neg (hother GameSave.isReserved_rollbackId hname),
          hsame name hname]
    · rename_i hnone
      cases h
      refine ⟨rfl, hr, hplayback, .inr ⟨?_, RollbackStack.tail_eq_nil hnone⟩, hsame⟩
      rw [NameMap.get?_insert, if_neg hne,
        hnames records _ hr GameSave.isReserved_rollbackId]

/-- What a game is saved with is what is read of its save: the records, where the game resumes and
the newest snapshots. -/
theorem ofMap_saveMap {m n : StateManager} {s : ServiceSet} {record : PlaybackRecord}
    {steps : Nat} {map : StateMap} (h : m.saveMap s record steps = (n, .ok map))
    (hi : record.spot.index < Decimal.twoTo 64) (hp : record.played < Decimal.twoTo 64)
    (hfits : ∀ x ∈ m.stack.snapshots, x.Fits)
    (hverify : ∀ x ∈ m.stack.snapshots, x.verify = .ok ())
    (hnames : ∀ records name, StateMap.collect s .game = .ok records →
      GameSave.isReserved name = true → records.get? name = none) :
    ∃ records, StateMap.collect s .game = .ok records ∧ n = m.remember .game records ∧
      GameSave.ofMap map = .ok ⟨records, some record, m.stack.tail steps⟩ := by
  obtain ⟨records, hn, hsaves⟩ := saves_saveMap h hnames
  have hfree := fun name hname => hnames records name hsaves.collected hname
  have htail : ∀ x ∈ m.stack.tail steps, x ∈ m.stack.snapshots := fun x hx =>
    (m.stack.tail_sublist steps).subset hx
  have hread := GameSave.readRecord_of_get? hsaves.playback (PlaybackRecord.ofJson?_toJson hi hp)
  refine ⟨records, hsaves.collected, hn, ?_⟩
  rcases hsaves.rollback with hrollback | ⟨hnone, hnil⟩
  · exact GameSave.ofMap_eq (some (m.stack.tail steps)) hread
      (GameSave.readRecord_of_get? hrollback
        (GameSave.readSnapshots_map fun x hx => hfits x (htail x hx)))
      (fun x hx => hverify x (htail x hx)) hsaves.same hfree
  · rw [hnil]
    refine GameSave.ofMap_eq none hread ?_ (fun x hx => absurd hx List.not_mem_nil) hsaves.same
      hfree
    unfold GameSave.readRecord
    rw [hnone]

/-- If a game save can be read, what is read of it is what it was made of. -/
theorem eq_of_ofMap_saveMap {m n : StateManager} {s : ServiceSet} {record : PlaybackRecord}
    {steps : Nat} {map : StateMap} (h : m.saveMap s record steps = (n, .ok map))
    (hnames : ∀ records name, StateMap.collect s .game = .ok records →
      GameSave.isReserved name = true → records.get? name = none) {save : GameSave}
    (hsave : GameSave.ofMap map = .ok save) :
    StateMap.collect s .game = .ok save.records ∧ save.playback = some record ∧
      save.rollback = m.stack.tail steps := by
  obtain ⟨records, -, hsaves⟩ := saves_saveMap h hnames
  obtain ⟨playback, hplayback, hsave⟩ := exists_of_bind_ok hsave
  obtain ⟨rollback, hrollback, hsave⟩ := exists_of_bind_ok hsave
  obtain ⟨u, -, hsave⟩ := exists_of_bind_ok hsave
  cases hsave
  refine ⟨?_, ?_, ?_⟩
  · have hfilter : (map.filter fun name _ => !GameSave.isReserved name) = records :=
      NameMap.filter_eq (fun name h => hsaves.same name (by simpa using h))
        fun name h => hnames records name hsaves.collected (by simpa using h)
    exact hfilter ▸ hsaves.collected
  · obtain ⟨r, hr, rfl⟩ := GameSave.readRecord_ok hsaves.playback hplayback
    exact congrArg some (PlaybackRecord.eq_of_ofJson? hr)
  · rcases hsaves.rollback with hget | ⟨hnone, hnil⟩
    · obtain ⟨l, hl, rfl⟩ := GameSave.readRecord_ok hget hrollback
      exact eq_of_mapM_map (fun x _ y => Snapshot.eq_of_ofJson?) hl
    · unfold GameSave.readRecord at hrollback
      rw [hnone] at hrollback
      cases hrollback
      exact hnil.symm

end StateManager

theorem NameMap.get?_erase {α : Type} (m : NameMap α) (name key : String) :
    (m.erase name).get? key = if name = key then none else m.get? key := by
  unfold erase
  rw [get?_filter]
  by_cases h : name = key
  · rw [if_neg (by simp [h]), if_pos h]
  · rw [if_pos (by simpa using fun heq => h heq.symm), if_neg h]

namespace SaveSlots

/-- Slots in memory, one of which holds a game. -/
def Stores (slot : String) (map : StateMap) (v : SaveSlots) : Prop :=
  ∃ slots, v = .memory slots ∧ checkSlot slot = .ok () ∧ (slots.get .game).get? slot = some map

def isMemory : SaveSlots → Bool
  | .memory _ => true
  | .directory _ => false

variable {slot other : String} {map map' : StateMap} {v : SaveSlots} {files : FileTree}

theorem Stores.load (h : v.Stores slot map) (files : FileTree) :
    v.load files .game slot = .ok (some map) := by
  obtain ⟨slots, rfl, hslot, hget⟩ := h
  unfold SaveSlots.load
  rw [hslot]
  exact congrArg Except.ok hget

/-- What was saved is held. -/
theorem stores_save {slots : ByScope (NameMap StateMap)} (hv : v = .memory slots)
    (h : (v.save files .game slot map).2.2 = .ok ()) :
    (v.save files .game slot map).2.1.Stores slot map := by
  unfold SaveSlots.save at h ⊢
  cases hslot : checkSlot slot with
  | error e =>
    rw [hslot] at h
    cases h
  | ok u =>
    rw [hv]
    refine ⟨_, rfl, hslot, ?_⟩
    rw [ByScope.get_set, if_pos rfl, NameMap.get?_insert, if_pos rfl]

theorem save_memory {slots : ByScope (NameMap StateMap)} (hv : v = .memory slots)
    (scope : StateScope) : (v.save files scope slot map).1 = files := by
  unfold SaveSlots.save
  rw [hv]
  cases checkSlot slot <;> rfl

/-- A change of the maps of a scope leaves what a slot holds, unless it is a change of that slot. -/
theorem stores_set {slots : ByScope (NameMap StateMap)} {scope : StateScope}
    {maps : NameMap StateMap} (h : (SaveSlots.memory slots).Stores slot map)
    (hmaps : scope = .game → maps.get? slot = (slots.get .game).get? slot) :
    (SaveSlots.memory (slots.set scope maps)).Stores slot map := by
  obtain ⟨_, hv, hslot, hget⟩ := h
  cases hv
  refine ⟨_, rfl, hslot, ?_⟩
  rw [ByScope.get_set]
  split
  · rename_i hscope
    exact (hmaps hscope.symm).trans hget
  · exact hget

/-- A save to another slot or of another scope leaves what a slot holds. -/
theorem Stores.save (h : v.Stores slot map) (files : FileTree) (scope : StateScope)
    (hne : scope = .game → other ≠ slot) (map' : StateMap) :
    (v.save files scope other map').2.1.Stores slot map := by
  unfold SaveSlots.save
  cases checkSlot other with
  | error e => exact h
  | ok u =>
    have hmemory := h
    obtain ⟨slots, rfl, -⟩ := hmemory
    refine stores_set h fun hscope => ?_
    rw [hscope, NameMap.get?_insert, if_neg (hne hscope)]

theorem Stores.delete (h : v.Stores slot map) (files : FileTree) (hne : other ≠ slot) :
    (v.delete files .game other).2.1.Stores slot map := by
  unfold SaveSlots.delete
  cases checkSlot other with
  | error e => exact h
  | ok u =>
    have hmemory := h
    obtain ⟨slots, rfl, -⟩ := hmemory
    refine stores_set h fun hscope => ?_
    rw [NameMap.get?_erase, if_neg hne]

end SaveSlots

end Playhead
