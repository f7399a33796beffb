import Playhead.Proofs.Files.Held
import Playhead.Proofs.Json.Reading

/-!
Save slots under a directory answer as save slots in memory do.

The one difference is the size of a save file, which is looked at when a save is loaded and not
when it is written.
-/

namespace Playhead

namespace FileTree

open Playhead.Path

variable {t t' : FileTree} {path : String}

/-- A directory can be made at a path, and nothing lies below it then. -/
def Vacant (t : FileTree) (path : String) : Prop :=
  ∃ t', t.makeDirectories path = (t', true) ∧
    ∀ names rest, t'.follow [] (parts path) = .ok names → rest ≠ [] →
      t'.node? (names ++ rest) = none

theorem Grows.find_notFound (h : Grows t t') (hfind : t'.find path = .error .notFound) :
    t.find path = .error .notFound := by
  have hplace : t.place path = t'.place path ∨ t.place path = .error .notFound := by
    unfold place
    split
    · exact .inl rfl
    · exact h.follow [] (parts path)
  rcases hplace with hplace | hplace
  · unfold find at hfind ⊢
    rw [hplace]
    cases hnames : t'.place path with
    | error e =>
      rw [hnames] at hfind
      exact hfind
    | ok names =>
      rw [hnames] at hfind
      dsimp only [bind, Except.bind] at hfind ⊢
      rcases h names with hsame | ⟨hnone, -⟩
      · rw [hsame] at hfind
        exact hfind
      · rw [hnone]
  · unfold find
    rw [hplace]
    rfl

theorem remove_of_find (h : t.find path = .error .notFound) :
    t.remove path = .error .notFound := by
  unfold find at h
  unfold remove
  cases hplace : t.place path with
  | error e =>
    rw [hplace] at h
    cases h
    rfl
  | ok names =>
    rw [hplace] at h
    dsimp only [bind, Except.bind] at h ⊢
    cases hnode : t.node? names with
    | none => rfl
    | some n =>
      rw [hnode] at h
      cases h

theorem list_of_find (h : t.find path = .error .notFound) :
    t.list path = .error .notFound := by
  unfold find at h
  unfold list
  cases hplace : t.place path with
  | error e =>
    rw [hplace] at h
    cases h
    rfl
  | ok names =>
    rw [hplace] at h
    dsimp only [bind, Except.bind] at h ⊢
    cases hnode : t.node? names with
    | none => rfl
    | some n =>
      rw [hnode] at h
      cases h

end FileTree

namespace SaveSlots

open Playhead.Path

/-- A call of the slots of a scope. -/
inductive Call where
  | save (scope : StateScope) (slot : String) (map : StateMap)
  | load (scope : StateScope) (slot : String)
  | delete (scope : StateScope) (slot : String)
  | list (scope : StateScope)

inductive Answer where
  | saved (r : Except SaveError Unit)
  | loaded (r : Except SaveError (Option StateMap))
  | deleted (r : Except SaveError Bool)
  | listed (r : Except SaveError (List String))

def call (files : FileTree) (s : SaveSlots) : Call → FileTree × SaveSlots × Answer
  | .save scope slot map =>
    match s.save files scope slot map with
    | (files, s, r) => (files, s, .saved r)
  | .load scope slot => (files, s, .loaded (s.load files scope slot))
  | .delete scope slot =>
    match s.delete files scope slot with
    | (files, s, r) => (files, s, .deleted r)
  | .list scope => (files, s, .listed (s.list files scope))

/-- The answers to a sequence of calls. -/
def answers (files : FileTree) (s : SaveSlots) : List Call → List Answer
  | [] => []
  | c :: rest =>
    match s.call files c with
    | (files, s, a) => a :: s.answers files rest

/-- Whether a map that is saved is read back from its text. -/
def Call.ReadsBack : Call → Prop
  | .save scope _ map => SaveFile.ReadsBack scope map
  | _ => True

/-- What becomes of an answer if save files are read up to a size only. -/
def Answer.limited (root : String) : Call → Answer → Answer
  | .load scope slot, .loaded (.ok (some map)) =>
    if fileLimit < (SaveFile.holding scope map).toText.utf8ByteSize then
      .loaded (.error (.inaccessible (slotPath root scope slot)))
    else .loaded (.ok (some map))
  | _, a => a

theorem limited_of_fits {root : String} {scope : StateScope} {slot : String} {map : StateMap}
    (h : ¬ fileLimit < (SaveFile.holding scope map).toText.utf8ByteSize) :
    Answer.limited root (.load scope slot) (.loaded (.ok (some map))) =
      .loaded (.ok (some map)) := by
  unfold Answer.limited
  dsimp only
  rw [if_neg h]

theorem limited_of_large {root : String} {scope : StateScope} {slot : String} {map : StateMap}
    (h : fileLimit < (SaveFile.holding scope map).toText.utf8ByteSize) :
    Answer.limited root (.load scope slot) (.loaded (.ok (some map))) =
      .loaded (.error (.inaccessible (slotPath root scope slot))) := by
  unfold Answer.limited
  dsimp only
  rw [if_pos h]

/-- The files of the slots are there, or nothing is and their directory can be made. -/
inductive Kept (root : String) (t : FileTree) : ByScope (NameMap StateMap) → Prop where
  | made {base slots} (held : Held root base t slots) : Kept root t slots
  | awaited {t' base} (made : t.makeAlong [] (steps root) = (t', true))
    (held : Held root base t' (.all .empty))
    (bare : ∀ scope : StateScope, t'.node? (base ++ [scope.name]) = none) :
    Kept root t (.all .empty)

variable {root slot : String} {scope : StateScope} {t : FileTree}
  {slots : ByScope (NameMap StateMap)} {map : StateMap}

theorem get_all_empty (scope : StateScope) :
    (ByScope.all (.empty : NameMap StateMap)).get scope = .empty := by
  cases scope <;> rfl

theorem Kept.find_slotPath (h : Kept root t slots) (hroot : isAbsolute root = false)
    (scope : StateScope) (hslot : isSlot slot = true) :
    t.find (slotPath root scope slot) =
      match (slots.get scope).get? slot with
      | some map => .ok (fileFor scope map)
      | none => .error .notFound := by
  cases h with
  | made held => exact held.find_slotPath hroot scope hslot
  | awaited made held bare =>
    have hfind := held.find_slotPath hroot scope hslot
    rw [get_all_empty, NameMap.get?_empty] at hfind ⊢
    exact (FileTree.grows_makeAlong made).find_notFound hfind

theorem Kept.list (h : Kept root t slots) (hroot : isAbsolute root = false) (scope : StateScope) :
    SaveSlots.list t (.directory root) scope = .ok (slots.get scope).keys := by
  cases h with
  | made held => exact held.list hroot scope
  | awaited made held bare =>
    have hfind := (FileTree.grows_makeAlong made).find_notFound
      (held.find_scopePath hroot (bare scope))
    unfold SaveSlots.list
    dsimp only
    rw [FileTree.list_of_find hfind, get_all_empty]
    rfl

theorem Kept.save (h : Kept root t slots) (hroot : isAbsolute root = false)
    (hslot : isSlot slot = true) (hreads : SaveFile.ReadsBack scope map) :
    ∃ t', SaveSlots.save t (.directory root) scope slot map = (t', .directory root, .ok ()) ∧
      Kept root t' (slots.set scope ((slots.get scope).insert slot map)) := by
  have hwrite : ∃ base t', t.write (slotPath root scope slot)
        (SaveFile.holding scope map).toText.toUTF8 = (t', .ok ()) ∧
      Held root base t' (slots.set scope ((slots.get scope).insert slot map)) := by
    cases h with
    | made held =>
      exact ⟨_, held.write hroot (FileTree.makeAlong_of_follow held.leads held.directory) hslot
        hreads⟩
    | awaited made held bare => exact ⟨_, held.write hroot made hslot hreads⟩
  obtain ⟨base, t', hwrite, held⟩ := hwrite
  refine ⟨t', ?_, .made held⟩
  unfold SaveSlots.save checkSlot
  rw [if_pos hslot]
  dsimp only
  unfold SaveFile.holding at hwrite
  rw [hwrite]

theorem erase_of_get?_none {m : NameMap StateMap} (h : m.get? slot = none) : m.erase slot = m := by
  refine NameMap.ext_get? fun key => ?_
  rw [NameMap.get?_erase]
  split
  · rename_i heq
    exact heq ▸ h.symm
  · rfl

theorem set_get (slots : ByScope (NameMap StateMap)) (scope : StateScope) :
    slots.set scope (slots.get scope) = slots := by
  cases scope <;> rfl

theorem Kept.delete (h : Kept root t slots) (hroot : isAbsolute root = false)
    (hslot : isSlot slot = true) :
    ∃ t', SaveSlots.delete t (.directory root) scope slot
        = (t', .directory root, .ok ((slots.get scope).contains slot)) ∧
      Kept root t' (slots.set scope ((slots.get scope).erase slot)) := by
  unfold SaveSlots.delete checkSlot NameMap.contains
  rw [if_pos hslot]
  dsimp only
  cases hget : (slots.get scope).get? slot with
  | none =>
    have hfind := h.find_slotPath hroot scope hslot
    rw [hget] at hfind
    rw [FileTree.remove_of_find hfind, erase_of_get?_none hget, set_get]
    exact ⟨t, rfl, h⟩
  | some map =>
    cases h with
    | made held =>
      obtain ⟨t', hremove, held'⟩ := held.remove hroot hslot hget
      rw [hremove]
      exact ⟨t', rfl, .made held'⟩
    | awaited made held bare =>
      rw [get_all_empty, NameMap.get?_empty] at hget
      cases hget

theorem Kept.readsBack (h : Kept root t slots) (hget : (slots.get scope).get? slot = some map) :
    SaveFile.ReadsBack scope map := by
  cases h with
  | made held => exact (held.maps scope slot map hget).2
  | awaited made held bare => exact (held.maps scope slot map hget).2

theorem readFile_holding {path : String} (hfind : t.find path = .ok (fileFor scope map))
    (hreads : SaveFile.ReadsBack scope map) :
    readFile t path scope =
      if fileLimit < (SaveFile.holding scope map).toText.utf8ByteSize then
        .error (.inaccessible path)
      else .ok map := by
  have hsize : (FileContent.bytes (SaveFile.holding scope map).toText.toUTF8).size
      = (SaveFile.holding scope map).toText.utf8ByteSize := rfl
  unfold readFile FileTree.read
  rw [hfind]
  unfold fileFor
  dsimp only
  rw [hsize]
  split
  · rename_i hread
    split at hread
    · rw [if_pos ‹_›]
    · cases hread
  · rename_i hread
    split at hread
    · cases hread
    · rw [if_neg ‹_›]
      cases hread
      unfold FileContent.toBytes
      rw [fromUTF8?_toUTF8, Option.bind_some, hreads]
      dsimp only
      rw [if_neg (by simp [SaveFile.holding]), if_neg (by simp [SaveFile.holding])]
      rfl

theorem Kept.load (h : Kept root t slots) (hroot : isAbsolute root = false)
    (scope : StateScope) (hslot : isSlot slot = true) :
    Answer.loaded (SaveSlots.load t (.directory root) scope slot) =
      .limited root (.load scope slot) (.loaded (.ok ((slots.get scope).get? slot))) := by
  have hfind := h.find_slotPath hroot scope hslot
  unfold SaveSlots.load checkSlot
  rw [if_pos hslot]
  dsimp only [bind, Except.bind]
  cases hget : (slots.get scope).get? slot with
  | none =>
    rw [hget] at hfind
    have hfile : t.isFile (slotPath root scope slot) = false := by
      unfold FileTree.isFile
      rw [hfind]
    rw [hfile]
    rfl
  | some map =>
    rw [hget] at hfind
    have hfile : t.isFile (slotPath root scope slot) = true := by
      unfold FileTree.isFile
      rw [hfind]
      rfl
    rw [if_pos hfile, readFile_holding hfind (h.readsBack hget)]
    by_cases hsize : fileLimit < (SaveFile.holding scope map).toText.utf8ByteSize
    · rw [limited_of_large hsize, if_pos hsize]
      rfl
    · rw [limited_of_fits hsize, if_neg hsize]
      rfl

section Memory

variable {files : FileTree} {s : SaveSlots}

theorem save_invalid (h : ¬ isSlot slot = true) :
    s.save files scope slot map = (files, s, .error (.invalidSlot slot)) := by
  unfold SaveSlots.save checkSlot
  rw [if_neg h]

theorem load_invalid (h : ¬ isSlot slot = true) :
    s.load files scope slot = .error (.invalidSlot slot) := by
  unfold SaveSlots.load checkSlot
  rw [if_neg h]
  rfl

theorem delete_invalid (h : ¬ isSlot slot = true) :
    s.delete files scope slot = (files, s, .error (.invalidSlot slot)) := by
  unfold SaveSlots.delete checkSlot
  rw [if_neg h]

theorem save_of_memory (h : isSlot slot = true) :
    SaveSlots.save files (.memory slots) scope slot map
      = (files, .memory (slots.set scope ((slots.get scope).insert slot map)), .ok ()) := by
  unfold SaveSlots.save checkSlot
  rw [if_pos h]

theorem load_of_memory (h : isSlot slot = true) :
    SaveSlots.load files (.memory slots) scope slot = .ok ((slots.get scope).get? slot) := by
  unfold SaveSlots.load checkSlot
  rw [if_pos h]
  rfl

theorem delete_of_memory (h : isSlot slot = true) :
    SaveSlots.delete files (.memory slots) scope slot
      = (files, .memory (slots.set scope ((slots.get scope).erase slot)),
        .ok ((slots.get scope).contains slot)) := by
  unfold SaveSlots.delete checkSlot
  rw [if_pos h]

end Memory

/-- A call is answered as by memory, up to the size of the file, and the files stay those of the
slots. -/
theorem Kept.call (h : Kept root t slots) (hroot : isAbsolute root = false) {c : Call}
    (hreads : c.ReadsBack) (files : FileTree) :
    ∃ t' slots' a, SaveSlots.call t (.directory root) c
        = (t', .directory root, .limited root c a) ∧
      SaveSlots.call files (.memory slots) c = (files, .memory slots', a) ∧
        Kept root t' slots' := by
  unfold SaveSlots.call
  cases c with
  | save scope slot map =>
    dsimp only
    by_cases hslot : isSlot slot = true
    · obtain ⟨t', hsave, hkept⟩ := h.save hroot hslot hreads
      rw [hsave, save_of_memory hslot]
      exact ⟨t', _, _, rfl, rfl, hkept⟩
    · rw [save_invalid hslot, save_invalid hslot]
      exact ⟨t, slots, _, rfl, rfl, h⟩
  | load scope slot =>
    dsimp only
    by_cases hslot : isSlot slot = true
    · rw [h.load hroot scope hslot, load_of_memory hslot]
      exact ⟨t, slots, _, rfl, rfl, h⟩
    · rw [load_invalid hslot, load_invalid hslot]
      exact ⟨t, slots, _, rfl, rfl, h⟩
  | delete scope slot =>
    dsimp only
    by_cases hslot : isSlot slot = true
    · obtain ⟨t', hdelete, hkept⟩ := h.delete hroot hslot
      rw [hdelete, delete_of_memory hslot]
      exact ⟨t', _, _, rfl, rfl, hkept⟩
    · rw [delete_invalid hslot, delete_invalid hslot]
      exact ⟨t, slots, _, rfl, rfl, h⟩
  | list scope =>
    dsimp only
    rw [h.list hroot scope]
    exact ⟨t, slots, _, rfl, rfl, h⟩

theorem Kept.answers (h : Kept root t slots) (hroot : isAbsolute root = false)
    {calls : List Call} (hreads : ∀ c ∈ calls, c.ReadsBack) (files : FileTree) :
    SaveSlots.answers t (.directory root) calls =
      calls.zipWith (Answer.limited root) (SaveSlots.answers files (.memory slots) calls) := by
  induction calls generalizing t slots with
  | nil => rfl
  | cons c rest ih =>
    obtain ⟨t', slots', a, hcall, hmemory, hkept⟩ :=
      h.call hroot (hreads c List.mem_cons_self) files
    unfold SaveSlots.answers
    rw [hcall, hmemory]
    dsimp only
    rw [List.zipWith_cons_cons,
      ih hkept fun c hc => hreads c (List.mem_cons_of_mem _ hc)]

theorem relative_of_vacant (h : t.Vacant root) : isAbsolute root = false := by
  obtain ⟨t', hmade, -⟩ := h
  unfold FileTree.makeDirectories at hmade
  split at hmade
  · rename_i hempty
    rw [hempty]
    rfl
  · cases habs : isAbsolute root with
    | false => rfl
    | true =>
      rw [if_pos habs] at hmade
      cases hmade

/-- Where nothing is, no slot holds a map. -/
theorem kept_of_vacant (h : t.Vacant root) : Kept root t (.all .empty) := by
  have hroot := relative_of_vacant h
  obtain ⟨t', hmade, hbelow⟩ := h
  rw [FileTree.makeDirectories_eq t hroot] at hmade
  have hopen : t.Open [] := fun names hinit => by
    rw [List.prefix_nil.1 hinit]
    rfl
  have hparts := hmade
  unfold steps at hparts
  rw [FileTree.makeAlong_filter] at hparts
  obtain ⟨base, hfollow, hbase⟩ := FileTree.follow_of_makeAlong hparts hopen
  have hscope : ∀ scope : StateScope, t'.node? (base ++ [scope.name]) = none := fun scope =>
    hbelow base _ hfollow (List.cons_ne_nil _ _)
  refine .awaited hmade ⟨FileTree.follow_filter hfollow, hbase base (List.prefix_refl base),
    fun scope => .inr ⟨hscope scope, get_all_empty scope⟩, fun scope name _ => ?_,
    fun scope slot map hget => ?_⟩ hscope
  · rw [List.append_assoc, hbelow base ([scope.name] ++ [name]) hfollow (List.cons_ne_nil _ _),
      get_all_empty]
    unfold fileOf
    cases slotOfFile? name <;> rfl
  · rw [get_all_empty, NameMap.get?_empty] at hget
    cases hget

/-- Whether a map that is saved is small enough to be loaded again. -/
def Call.Fits : Call → Prop
  | .save scope _ map => (SaveFile.holding scope map).toText.utf8ByteSize ≤ fileLimit
  | _ => True

/-- Memory holds and gives back only what was saved. -/
theorem call_of_memory (files : FileTree) (slots : ByScope (NameMap StateMap)) (c : Call) :
    ∃ slots' a, SaveSlots.call files (.memory slots) c = (files, .memory slots', a) ∧
      (∀ scope slot map, (slots'.get scope).get? slot = some map →
        (slots.get scope).get? slot = some map ∨ c = .save scope slot map) ∧
      ∀ scope slot map, c = .load scope slot → a = .loaded (.ok (some map)) →
        (slots.get scope).get? slot = some map := by
  unfold SaveSlots.call
  cases c with
  | save scope slot map =>
    dsimp only
    by_cases hslot : isSlot slot = true
    · rw [save_of_memory hslot]
      refine ⟨_, _, rfl, fun other name held hget => ?_, nofun⟩
      rw [ByScope.get_set] at hget
      split at hget
      · rename_i hscope
        rw [NameMap.get?_insert] at hget
        split at hget
        · rename_i hname
          exact .inr (by rw [hscope, ← hname, Option.some.inj hget])
        · exact .inl (hscope ▸ hget)
      · exact .inl hget
    · rw [save_invalid hslot]
      exact ⟨slots, _, rfl, fun _ _ _ hget => .inl hget, nofun⟩
  | load scope slot =>
    refine ⟨slots, _, rfl, fun _ _ _ hget => .inl hget, fun other name map hcall hanswer => ?_⟩
    cases hcall
    by_cases hslot : isSlot slot = true
    · rw [load_of_memory hslot] at hanswer
      exact Except.ok.inj (Answer.loaded.inj hanswer)
    · rw [load_invalid hslot] at hanswer
      cases hanswer
  | delete scope slot =>
    dsimp only
    by_cases hslot : isSlot slot = true
    · rw [delete_of_memory hslot]
      refine ⟨_, _, rfl, fun other name held hget => ?_, nofun⟩
      rw [ByScope.get_set] at hget
      split at hget
      · rename_i hscope
        rw [NameMap.get?_erase] at hget
        split at hget
        · cases hget
        · exact .inl (hscope ▸ hget)
      · exact .inl hget
    · rw [delete_invalid hslot]
      exact ⟨slots, _, rfl, fun _ _ _ hget => .inl hget, nofun⟩
  | list scope => exact ⟨slots, _, rfl, fun _ _ _ hget => .inl hget, nofun⟩

/-- Nothing is limited if all that is saved fits. -/
theorem zipWith_limited {calls : List Call} (hfits : ∀ c ∈ calls, c.Fits)
    (hslots : ∀ scope slot map, (slots.get scope).get? slot = some map →
      (Call.save scope slot map).Fits) (files : FileTree) :
    calls.zipWith (Answer.limited root) (answers files (.memory slots) calls)
      = answers files (.memory slots) calls := by
  induction calls generalizing slots with
  | nil => rfl
  | cons c rest ih =>
    obtain ⟨slots', a, hcall, hheld, hload⟩ := call_of_memory files slots c
    have hlimited : Answer.limited root c a = a := by
      cases c with
      | load scope slot =>
        cases a with
        | loaded r =>
          cases r with
          | ok held =>
            cases held with
            | none => rfl
            | some map => exact limited_of_fits (Nat.not_lt.2 (hslots _ _ _ (hload _ _ _ rfl rfl)))
          | error e => rfl
        | _ => rfl
      | _ => rfl
    have hslots' : ∀ scope slot map, (slots'.get scope).get? slot = some map →
        (Call.save scope slot map).Fits := by
      intro scope slot map hget
      rcases hheld scope slot map hget with hget | rfl
      · exact hslots scope slot map hget
      · exact hfits _ List.mem_cons_self
    have hrest := ih (fun d hd => hfits d (List.mem_cons_of_mem c hd)) hslots'
    unfold answers
    rw [hcall]
    dsimp only
    rw [List.zipWith_cons_cons, hlimited, hrest]

/-- Where every map that is saved fits, files answer as memory does. -/
theorem directory_answers_of_fits (hroot : t.Vacant root) {calls : List Call}
    (hreads : ∀ c ∈ calls, c.ReadsBack) (hfits : ∀ c ∈ calls, c.Fits) (files : FileTree) :
    answers t (.directory root) calls = answers files inMemory calls := by
  rw [(kept_of_vacant hroot).answers (relative_of_vacant hroot) hreads files]
  refine zipWith_limited hfits (fun scope slot map hget => ?_) files
  rw [get_all_empty, NameMap.get?_empty] at hget
  cases hget

/-- A map that holds one text. -/
def note (text : String) : StateMap :=
  NameMap.empty.insert "note" (.text text)

end SaveSlots

end Playhead
