import Mathlib.Data.List.Sort
import Playhead.Proofs.Files.Tree

/-!
The files of the save slots of a directory: one for each map that is held, and no others.
-/

namespace Playhead

namespace NameMap

variable {α β : Type}

theorem keys_pairwise (m : NameMap α) : m.keys.Pairwise (· < ·) :=
  List.pairwise_map.2 m.ordered

/-- The names of a map are listed in order, so the same names are the same list. -/
theorem keys_eq {m : NameMap α} {n : NameMap β} (h : ∀ name, name ∈ m.keys ↔ name ∈ n.keys) :
    m.keys = n.keys :=
  m.keys_pairwise.eq_of_mem_iff n.keys_pairwise h

theorem mem_keys_insert {m : NameMap α} {name key : String} {value : α} :
    key ∈ (m.insert name value).keys ↔ key ∈ m.keys ∨ key = name := by
  rw [mem_keys_iff, mem_keys_iff, get?_insert]
  by_cases h : name = key
  · simp [h]
  · rw [if_neg h]
    exact (or_iff_left fun heq => h heq.symm).symm

theorem mem_keys_ofList {l : List (String × α)} {name : String} :
    name ∈ (ofList l).keys ↔ name ∈ l.map (·.1) := by
  have hfold : ∀ m : NameMap α, name ∈ (l.foldl (fun m e => m.insert e.1 e.2) m).keys ↔
      name ∈ m.keys ∨ name ∈ l.map (·.1) := by
    induction l with
    | nil => simp
    | cons e l ih =>
      intro m
      rw [List.foldl_cons, ih, mem_keys_insert, List.map_cons, List.mem_cons, or_assoc]
  exact (hfold .empty).trans (or_iff_right List.not_mem_nil)

end NameMap

/-- What the save of a map of a scope is written as. -/
def SaveFile.holding (scope : StateScope) (map : StateMap) : SaveFile :=
  ⟨formatName, currentVersion, scope, map⟩

/-- The text of a save is read back as what was written. -/
def SaveFile.ReadsBack (scope : StateScope) (map : StateMap) : Prop :=
  ofText? (holding scope map).toText = some (holding scope map)

theorem fromUTF8?_toUTF8 (text : String) : String.fromUTF8? text.toUTF8 = some text :=
  dif_pos text.isValidUTF8

namespace SaveSlots

open Playhead.Path

variable {root slot name : String} {scope : StateScope} {t t' : FileTree} {base : List String}
  {slots : ByScope (NameMap StateMap)} {map : StateMap}

theorem isPlain_scope (scope : StateScope) : IsPlain scope.name := by
  cases scope <;> exact ⟨by decide, by decide, by decide, by decide⟩

theorem scope_name_inj {scope other : StateScope} (h : scope.name = other.name) :
    scope = other := by
  cases scope <;> cases other <;> first | rfl | exact absurd h (by decide)

theorem isSlot_iff : isSlot slot = true ↔ slot ≠ "" ∧ slot.utf8ByteSize ≤ 64 ∧
    ∀ c ∈ slot.toList, (c.isAlphanum || c = '-' || c = '_') = true := by
  unfold isSlot
  simp only [Bool.and_eq_true, decide_eq_true_eq, List.all_eq_true, and_assoc]

theorem not_mem_of_isSlot {c : Char} (h : isSlot slot = true)
    (hc : (c.isAlphanum || c = '-' || c = '_') = false) : c ∉ slot.toList := by
  intro hmem
  rw [(isSlot_iff.1 h).2.2 c hmem] at hc
  cases hc

theorem isPlain_file (h : isSlot slot = true) : IsPlain (slot ++ ".json") := by
  have hlen : 5 ≤ (slot ++ ".json").length := by
    rw [String.length_append]
    exact Nat.le_add_left _ _
  refine ⟨?_, ?_, ?_, ?_⟩
  · rw [String.toList_append, List.mem_append]
    exact not_or.2 ⟨not_mem_of_isSlot h (by decide), by decide⟩
  all_goals
    intro heq
    rw [heq] at hlen
    exact absurd hlen (by decide)

/-- Names of slots leave room for what a file's name adds. -/
theorem isName_append (h : isSlot slot = true) {ext : String} (hsize : ext.utf8ByteSize ≤ 9)
    (hzero : '\x00' ∉ ext.toList) : FileTree.isName (slot ++ ext) = true := by
  have hslot := (isSlot_iff.1 h).2.1
  unfold FileTree.isName
  rw [Bool.and_eq_true, decide_eq_true_iff, String.utf8ByteSize_append, Bool.not_eq_true',
    String.toList_append, List.contains_eq_mem, decide_eq_false_iff_not, List.mem_append]
  exact ⟨by omega, not_or.2 ⟨not_mem_of_isSlot h (by decide), hzero⟩⟩

theorem slotOfFile?_eq_some_iff :
    slotOfFile? name = some slot ↔ isSlot slot = true ∧ name = slot ++ ".json" := by
  have hfile : slot ++ ".json" = slot ++ "." ++ "json" := by
    rw [String.append_assoc]
    rfl
  unfold slotOfFile?
  constructor
  · intro h
    split at h
    · rename_i stem hsplit
      split at h
      · cases h
        exact ⟨‹_›, hfile ▸ eq_of_splitName hsplit⟩
      · cases h
    · cases h
  · rintro ⟨hslot, rfl⟩
    rw [hfile, splitName_eq (isSlot_iff.1 hslot).1 (by decide)]
    exact if_pos hslot

theorem slotOfFile?_beside (name : String) : slotOfFile? (name ++ ".json" ++ ".tmp") = none := by
  refine Option.eq_none_iff_forall_not_mem.2 fun slot hslot => ?_
  have hlast := congrArg (fun text => text.toList.getLast?) (slotOfFile?_eq_some_iff.1 hslot).2
  simp only [String.toList_append, List.getLast?_append] at hlast
  exact absurd (Option.some.inj hlast : 'p' = 'n') (by decide)

/-- The file of a map of a scope. -/
def fileFor (scope : StateScope) (map : StateMap) : FileNode :=
  .file (.bytes (SaveFile.holding scope map).toText.toUTF8)

/-- The file that stands under a name if maps are held. -/
def fileOf (scope : StateScope) (maps : NameMap StateMap) (name : String) : Option FileNode :=
  ((slotOfFile? name).bind maps.get?).map (fileFor scope)

theorem fileOf_slot (h : isSlot slot = true) (maps : NameMap StateMap) :
    fileOf scope maps (slot ++ ".json") = (maps.get? slot).map (fileFor scope) := by
  unfold fileOf
  rw [slotOfFile?_eq_some_iff.2 ⟨h, rfl⟩, Option.bind_some]

theorem fileOf_ne_directory (maps : NameMap StateMap) :
    fileOf scope maps name ≠ some .directory := by
  intro h
  obtain ⟨map, -, hmap⟩ := Option.map_eq_some_iff.1 h
  cases hmap

/-- The directories of the scopes hold the files of the slots, and no others. -/
structure Held (root : String) (base : List String) (t : FileTree)
    (slots : ByScope (NameMap StateMap)) : Prop where
  leads : t.follow [] (steps root) = .ok base
  directory : t.node? base = some .directory
  scopes : ∀ scope : StateScope, t.node? (base ++ [scope.name]) = some .directory ∨
    t.node? (base ++ [scope.name]) = none ∧ slots.get scope = .empty
  files : ∀ (scope : StateScope) (name : String), '/' ∉ name.toList →
    t.node? (base ++ [scope.name] ++ [name]) = fileOf scope (slots.get scope) name
  maps : ∀ scope slot map, (slots.get scope).get? slot = some map →
    isSlot slot = true ∧ SaveFile.ReadsBack scope map

theorem Held.slashless (h : Held root base t slots) : FileTree.Slashless base :=
  FileTree.slashless_of_follow h.leads FileTree.slashless_nil (FileTree.slashless_steps root)

theorem Held.place_scopePath (h : Held root base t slots) (hroot : isAbsolute root = false)
    (scope : StateScope) : t.place (scopePath root scope) = .ok (base ++ [scope.name]) := by
  unfold scopePath
  rw [FileTree.place_join t hroot (isPlain_scope scope), FileTree.follow_append, h.leads]
  exact FileTree.follow_plain h.directory (isPlain_scope scope)

theorem place_slotPath (t : FileTree) (hroot : isAbsolute root = false) (scope : StateScope)
    (hslot : isSlot slot = true) :
    t.place (slotPath root scope slot)
      = t.place (scopePath root scope) >>= fun names => t.follow names [slot ++ ".json"] := by
  unfold slotPath scopePath
  rw [FileTree.place_join t (isAbsolute_join hroot (isPlain_scope scope).slashless)
    (isPlain_file hslot), steps_join root (isPlain_scope scope), FileTree.follow_append,
    FileTree.place_join t hroot (isPlain_scope scope)]

theorem Held.find_slotPath (h : Held root base t slots) (hroot : isAbsolute root = false)
    (scope : StateScope) (hslot : isSlot slot = true) :
    t.find (slotPath root scope slot) =
      match (slots.get scope).get? slot with
      | some map => .ok (fileFor scope map)
      | none => .error .notFound := by
  have hplace := place_slotPath t hroot scope hslot
  rw [h.place_scopePath hroot scope] at hplace
  rcases h.scopes scope with hdir | ⟨hnone, hempty⟩
  · have hfile : t.place (slotPath root scope slot)
        = .ok (base ++ [scope.name] ++ [slot ++ ".json"]) :=
      hplace.trans (FileTree.follow_plain hdir (isPlain_file hslot))
    rw [FileTree.find_of_place hfile, h.files scope _ (isPlain_file hslot).slashless,
      fileOf_slot hslot]
    cases (slots.get scope).get? slot <;> rfl
  · rw [hempty, NameMap.get?_empty]
    unfold FileTree.find
    rw [hplace]
    dsimp only [bind, Except.bind]
    rw [FileTree.follow_cons, hnone]

theorem Held.find_scopePath (h : Held root base t slots) (hroot : isAbsolute root = false)
    (hnone : t.node? (base ++ [scope.name]) = none) :
    t.find (scopePath root scope) = .error .notFound := by
  rw [FileTree.find_of_place (h.place_scopePath hroot scope), hnone]

theorem concat_ne_concat {name other : String} {names : List String} (h : name ≠ other) :
    names ++ [name] ≠ names ++ [other] :=
  fun heq => h (List.cons.inj (List.append_cancel_left heq)).1

theorem scope_ne_file (base : List String) (a b name : String) :
    base ++ [a] ≠ base ++ [b] ++ [name] := by
  intro heq
  have hlen := congrArg List.length heq
  simp at hlen

theorem file_ne_file {base : List String} {a b name other : String} (h : a ≠ b) :
    base ++ [a] ++ [name] ≠ base ++ [b] ++ [other] := by
  intro heq
  have hinit := congrArg List.dropLast heq
  rw [List.dropLast_concat, List.dropLast_concat] at hinit
  exact concat_ne_concat h hinit

/-- A change of one file is a change of one slot. -/
theorem Held.change (h : Held root base t slots)
    (hdir : t.node? (base ++ [scope.name]) = some .directory) (hslot : isSlot slot = true)
    {maps : NameMap StateMap} {held : Option StateMap}
    (hheld : ∀ map, held = some map → SaveFile.ReadsBack scope map)
    (hmaps : ∀ other, maps.get? other =
      if slot = other then held else (slots.get scope).get? other)
    (hfile : t'.node? (base ++ [scope.name] ++ [slot ++ ".json"]) = held.map (fileFor scope))
    (hnodes : ∀ names, FileTree.Slashless names →
      names ≠ base ++ [scope.name] ++ [slot ++ ".json"] → t'.node? names = t.node? names) :
    Held root base t' (slots.set scope maps) := by
  have hscope : ∀ other : StateScope, FileTree.Slashless (base ++ [other.name]) := fun other =>
    h.slashless.concat (isPlain_scope other).slashless
  have hplain := isPlain_file hslot
  have hkeeps : t.Keeps t' := by
    intro names hnames hnode
    rw [hnodes names hnames, hnode]
    rintro rfl
    rw [h.files scope _ hplain.slashless] at hnode
    exact fileOf_ne_directory _ hnode
  refine ⟨?leads, hkeeps base h.slashless h.directory, ?scopes, ?files, ?maps⟩
  case leads =>
    exact hkeeps.follow h.leads FileTree.slashless_nil (FileTree.slashless_steps root)
  case scopes =>
    intro other
    rw [ByScope.get_set, hnodes _ (hscope other) (scope_ne_file base other.name scope.name _)]
    split
    · rename_i heq
      exact .inl (heq ▸ hdir)
    · exact h.scopes other
  case files =>
    intro other name hname
    have hslash := (hscope other).concat hname
    rw [ByScope.get_set]
    by_cases heq : other = scope
    · rw [if_pos heq, heq]
      by_cases hsame : name = slot ++ ".json"
      · rw [hsame, hfile, fileOf_slot hslot, hmaps, if_pos rfl]
      · rw [hnodes _ (heq ▸ hslash) (concat_ne_concat hsame), h.files scope name hname]
        unfold fileOf
        cases hstem : slotOfFile? name with
        | none => rfl
        | some stem =>
          have hne : slot ≠ stem := by
            rintro rfl
            exact hsame (slotOfFile?_eq_some_iff.1 hstem).2
          rw [Option.bind_some, Option.bind_some, hmaps, if_neg hne]
    · rw [if_neg heq, hnodes _ hslash (file_ne_file fun hn => heq (scope_name_inj hn)),
        h.files other name hname]
  case maps =>
    intro other stem map hget
    rw [ByScope.get_set] at hget
    split at hget
    · rename_i heq
      rw [hmaps] at hget
      rw [heq]
      split at hget
      · rename_i hstem
        exact ⟨hstem ▸ hslot, hheld map hget⟩
      · exact h.maps scope stem map hget
    · exact h.maps other stem map hget

/-- The directory of a scope is made if it is not there. -/
theorem Held.makeScope (h : Held root base t slots) (scope : StateScope) :
    ∃ t', t.makeAlong base [scope.name] = (t', true) ∧ Held root base t' slots ∧
      t'.node? (base ++ [scope.name]) = some .directory := by
  have hplain := isPlain_scope scope
  have hslash := h.slashless.concat hplain.slashless
  have hne := List.concat_ne_nil scope.name base
  rcases h.scopes scope with hdir | ⟨hnone, -⟩
  · exact ⟨t, FileTree.makeAlong_of_follow (FileTree.follow_plain h.directory hplain) hdir, h, hdir⟩
  · have hgrows := FileTree.grows_put hne hnone
    have hname : FileTree.isName scope.name = true := by cases scope <;> decide
    refine ⟨t.put (base ++ [scope.name]) .directory, FileTree.makeAlong_plain hnone hplain hname,
      ⟨?leads, ?_, ?scopes, ?files, h.maps⟩, ?_⟩
    case leads =>
      exact FileTree.Keeps.follow (fun _ _ hnode => hgrows.keeps hnode) h.leads
        FileTree.slashless_nil (FileTree.slashless_steps root)
    · exact hgrows.keeps h.directory
    case scopes =>
      intro other
      rw [FileTree.node?_put hne hslash (h.slashless.concat (isPlain_scope other).slashless)]
      split
      · exact .inl rfl
      · exact h.scopes other
    case files =>
      intro other name hfile
      rw [FileTree.node?_put hne hslash
        ((h.slashless.concat (isPlain_scope other).slashless).concat hfile),
        if_neg fun heq => scope_ne_file base scope.name other.name name heq.symm]
      exact h.files other name hfile
    · rw [FileTree.node?_put hne hslash hslash, if_pos rfl]

/-- Writing a slot's file puts the map into the slot. -/
theorem Held.write (h : Held root base t' slots) (hroot : isAbsolute root = false)
    (hmade : t.makeAlong [] (steps root) = (t', true)) (hslot : isSlot slot = true)
    (hreads : SaveFile.ReadsBack scope map) :
    ∃ t'', t.write (slotPath root scope slot) (SaveFile.holding scope map).toText.toUTF8
        = (t'', .ok ()) ∧
      Held root base t'' (slots.set scope ((slots.get scope).insert slot map)) := by
  have hplain := isPlain_file hslot
  obtain ⟨t₁, hscope, h₁, hdir⟩ := h.makeScope scope
  have hmade₁ : t.makeAlong [] (steps root ++ [scope.name]) = (t₁, true) :=
    (FileTree.makeAlong_append hmade h.leads [scope.name]).trans hscope
  have hfollow : t₁.follow [] (steps root ++ [scope.name]) = .ok (base ++ [scope.name]) := by
    rw [FileTree.follow_append, h₁.leads]
    exact FileTree.follow_plain h₁.directory (isPlain_scope scope)
  have hfile : ∀ name : String, '/' ∉ name.toList →
      t₁.node? (base ++ [scope.name] ++ [name]) ≠ some .directory := by
    intro name hname
    rw [h₁.files scope name hname]
    exact fileOf_ne_directory _
  have hbeside := (FileTree.isPlain_beside hplain).slashless
  obtain ⟨t'', hwrite, hnodes⟩ := FileTree.write_join hroot (isPlain_scope scope) hplain
    (isName_append hslot (by decide) (by decide))
    (by rw [String.append_assoc]; exact isName_append hslot (by decide) (by decide))
    hmade₁ hfollow hdir (hfile _ hplain.slashless) (hfile _ hbeside)
  have hslash := (h.slashless.concat (isPlain_scope scope).slashless).concat hplain.slashless
  have hheld : t''.node? (base ++ [scope.name] ++ [slot ++ ".json"])
      = (some map).map (fileFor scope) := by
    rw [hnodes _ hslash, if_pos rfl]
    rfl
  refine ⟨t'', hwrite, h₁.change hdir hslot ?_ (NameMap.get?_insert _ slot · map) hheld ?_⟩
  · intro _ hmap
    cases hmap
    exact hreads
  · intro names hnames hne
    rw [hnodes names hnames, if_neg hne]
    split
    · rename_i hnames
      rw [hnames, h₁.files scope _ hbeside]
      unfold fileOf
      rw [slotOfFile?_beside]
      rfl
    · rfl

/-- Removing a slot's file empties the slot. -/
theorem Held.remove (h : Held root base t slots) (hroot : isAbsolute root = false)
    (hslot : isSlot slot = true) (hget : (slots.get scope).get? slot = some map) :
    ∃ t', t.remove (slotPath root scope slot) = .ok t' ∧
      Held root base t' (slots.set scope ((slots.get scope).erase slot)) := by
  have hplain := isPlain_file hslot
  have hslash := (h.slashless.concat (isPlain_scope scope).slashless).concat hplain.slashless
  have hne := List.concat_ne_nil (slot ++ ".json") (base ++ [scope.name])
  have hdir : t.node? (base ++ [scope.name]) = some .directory := by
    rcases h.scopes scope with hdir | ⟨-, hempty⟩
    · exact hdir
    · rw [hempty, NameMap.get?_empty] at hget
      cases hget
  have hplace := place_slotPath t hroot scope hslot
  rw [h.place_scopePath hroot scope] at hplace
  have hfile := h.files scope _ hplain.slashless
  rw [fileOf_slot hslot, hget] at hfile
  refine ⟨_, FileTree.remove_of_place (hplace.trans (FileTree.follow_plain hdir hplain)) hfile,
    h.change hdir hslot ?_ (NameMap.get?_erase _ slot) ?_ ?_⟩
  · exact nofun
  · rw [FileTree.node?_erase hne hslash hslash, if_pos rfl]
    rfl
  · intro names hnames hother
    rw [FileTree.node?_erase hne hslash hnames, if_neg hother]

/-- The slots listed are those that hold a map. -/
theorem Held.list (h : Held root base t slots) (hroot : isAbsolute root = false)
    (scope : StateScope) :
    SaveSlots.list t (.directory root) scope = .ok (slots.get scope).keys := by
  have hplace := h.place_scopePath hroot scope
  unfold SaveSlots.list
  dsimp only
  rcases h.scopes scope with hdir | ⟨hnone, hempty⟩
  · obtain ⟨names, hlist, hnames⟩ :=
      FileTree.list_of_place hplace hdir (List.concat_ne_nil scope.name base)
    rw [hlist]
    refine congrArg Except.ok (NameMap.keys_eq fun slot => ?_)
    rw [NameMap.mem_keys_ofList, List.map_map, NameMap.mem_keys_iff]
    have hfirst : List.map ((fun e : String × Unit => e.1) ∘ fun s => (s, ()))
        (names.filterMap slotOfFile?) = names.filterMap slotOfFile? := List.map_id _
    rw [hfirst, List.mem_filterMap]
    constructor
    · rintro ⟨name, hmem, hstem⟩ hget
      obtain ⟨hslot, rfl⟩ := slotOfFile?_eq_some_iff.1 hstem
      have hnode := (hnames _).1 hmem
      rw [h.files scope _ hnode.1, fileOf_slot hslot, hget] at hnode
      exact hnode.2 rfl
    · intro hne
      obtain ⟨map, hget⟩ := Option.ne_none_iff_exists'.1 hne
      have hslot := (h.maps scope slot map hget).1
      have hslash := (isPlain_file hslot).slashless
      refine ⟨_, (hnames _).2 ⟨hslash, ?_⟩, slotOfFile?_eq_some_iff.2 ⟨hslot, rfl⟩⟩
      rw [h.files scope _ hslash, fileOf_slot hslot, hget]
      exact nofun
  · unfold FileTree.list
    rw [hplace]
    dsimp only [bind, Except.bind]
    rw [hnone, hempty]
    rfl

end SaveSlots

end Playhead
