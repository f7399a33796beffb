import Playhead.Library.Resource
import Playhead.Proofs.Files.Path

/-!
Resources stay below their directory.

A path is either refused or leads, name by name, from the directory on.
-/

namespace Playhead

namespace Path

/-- The components of a path but for the dots that change nothing. -/
def normal (path : String) : List Component :=
  (components path).filter (· ≠ .current)

variable {part path : String} {l : List String}

theorem component?_of_ne (h : part ≠ "..") :
    component? part = if isReal part then some (.name part) else none := by
  unfold component? isReal
  by_cases hempty : part = "" <;> by_cases hdot : part = "." <;> simp [hempty, hdot, h]

/-- Parts stand for names, or for a step upwards. -/
theorem eq_of_mem_filterMap {c : Component} (h : c ∈ l.filterMap component?) :
    c = .parent ∧ ".." ∈ l ∨ ∃ name, c = .name name := by
  obtain ⟨part, hpart, hc⟩ := List.mem_filterMap.1 h
  by_cases hup : part = ".."
  · subst hup
    cases hc
    exact .inl ⟨rfl, hpart⟩
  · rw [component?_of_ne hup] at hc
    split at hc
    · exact .inr ⟨part, (Option.some.inj hc).symm⟩
    · cases hc

theorem filterMap_component? (h : ".." ∉ l) :
    l.filterMap component? = (l.filter isReal).map .name := by
  induction l with
  | nil => rfl
  | cons part l ih =>
    have hne : part ≠ ".." := fun heq => h (heq ▸ List.mem_cons_self)
    have hl := ih fun hmem => h (List.mem_cons_of_mem part hmem)
    rw [List.filterMap_cons, component?_of_ne hne, List.filter_cons]
    split <;> simp_all

/-- A path has the components of its parts, behind a root or a dot at its beginning. -/
theorem components_eq (path : String) :
    components path = .root :: (parts path).filterMap component? ∧ isAbsolute path ∨
      (components path = (parts path).filterMap component? ∨
        components path = .current :: (parts path).filterMap component?) ∧ ¬isAbsolute path := by
  unfold components
  split
  · rename_i h
    exact .inl ⟨rfl, h⟩
  · rename_i h
    refine .inr ⟨?_, h⟩
    split
    · rename_i rest hrest
      right
      rw [hrest, List.filterMap_cons]
      rfl
    · exact .inl rfl

theorem root_mem_components_iff : .root ∈ components path ↔ isAbsolute path := by
  have hroot : .root ∉ (parts path).filterMap component? := fun h => by
    obtain ⟨heq, -⟩ | ⟨name, heq⟩ := eq_of_mem_filterMap h <;> cases heq
  rcases components_eq path with ⟨heq, habs⟩ | ⟨heq | heq, habs⟩
  all_goals rw [heq]; simp [habs, hroot]

theorem parent_mem_components_iff : .parent ∈ components path ↔ ".." ∈ parts path := by
  have hparent : .parent ∈ (parts path).filterMap component? ↔ ".." ∈ parts path := by
    refine ⟨fun h => ?_, fun h => List.mem_filterMap.2 ⟨"..", h, rfl⟩⟩
    obtain ⟨-, hup⟩ | ⟨name, heq⟩ := eq_of_mem_filterMap h
    · exact hup
    · cases heq
  rcases components_eq path with ⟨heq, habs⟩ | ⟨heq | heq, habs⟩
  all_goals rw [heq]; simp [hparent]

theorem normal_eq (path : String) :
    normal path =
      (if isAbsolute path then [.root] else []) ++ (parts path).filterMap component? := by
  have hkeep : ((parts path).filterMap component?).filter (· ≠ .current) =
      (parts path).filterMap component? := by
    refine List.filter_eq_self.2 fun c hc => decide_eq_true ?_
    rintro rfl
    obtain ⟨heq, -⟩ | ⟨name, heq⟩ := eq_of_mem_filterMap hc <;> cases heq
  unfold normal
  rcases components_eq path with ⟨heq, habs⟩ | ⟨heq | heq, habs⟩
  · rw [heq, if_pos habs, List.filter_cons_of_pos (by decide), hkeep]
    rfl
  · rw [heq, if_neg habs, hkeep]
    rfl
  · rw [heq, if_neg habs, List.filter_cons_of_neg (by decide), hkeep]
    rfl

/-- What is put below a path goes on where the path ends. -/
theorem normal_join (base : String) (h : isAbsolute path = false) :
    normal (join base path) = normal base ++ (parts path).filterMap component? := by
  rcases join_cases base h with ⟨rfl, hjoin⟩ | ⟨a, rfl, hjoin⟩ | ⟨hne, hjoin⟩
  · rw [hjoin, normal_eq, h]
    rfl
  · have hslash := parts_append_slash a ""
    rw [String.append_empty] at hslash
    rw [hjoin, normal_eq, normal_eq, isAbsolute_append (append_slash_ne_empty a),
      parts_append_slash, hslash, List.filterMap_append, List.filterMap_append,
      List.append_assoc, List.append_assoc]
    rfl
  · rw [hjoin, normal_eq, normal_eq, parts_append_slash, List.filterMap_append,
      String.append_assoc, isAbsolute_append hne, List.append_assoc]

end Path

namespace Resources

open Playhead.Path

/-- A path that names nothing, begins at the top or has a step upwards. -/
def Strays (path : String) : Prop :=
  path = "" ∨ isAbsolute path ∨ ".." ∈ parts path

/-- A path is refused whatever the files are. -/
def Refuses (r : Resources) (path : String) : Prop :=
  ∀ files, resolve files r path = .error (.invalidPath path) ∧ contains files r path = false

/-- What is found under a path depends on nothing but what lies at one file. -/
def LooksOnlyAt (r : Resources) (path file : String) : Prop :=
  ∀ files files' : FileTree, files.find file = files'.find file →
    resolve files r path = resolve files' r path ∧ contains files r path = contains files' r path

theorem isInside_iff {path : String} : isInside path = true ↔ ¬Strays path := by
  have hall : isInside path = true ↔
      path ≠ "" ∧ .root ∉ components path ∧ .parent ∉ components path := by
    unfold isInside
    rw [Bool.and_eq_true, decide_eq_true_iff, List.all_eq_true]
    refine and_congr_right fun _ => ⟨fun h => ⟨?_, ?_⟩, fun ⟨hroot, hparent⟩ c hc => ?_⟩
    · exact fun hroot => Bool.false_ne_true (h .root hroot)
    · exact fun hparent => Bool.false_ne_true (h .parent hparent)
    · cases c with
      | root => exact absurd hc hroot
      | parent => exact absurd hc hparent
      | current | name => rfl
  rw [hall, root_mem_components_iff, parent_mem_components_iff, Strays, not_or, not_or]

theorem refuses_of_strays (root : String) {path : String} (h : Strays path) :
    Refuses (.directory root) path := by
  have hrefused : filePath root path = .error (.invalidPath path) :=
    if_neg fun hinside => isInside_iff.1 hinside h
  intro files
  unfold resolve contains
  dsimp only
  rw [hrefused]
  exact ⟨rfl, rfl⟩

theorem looksOnlyAt_of_filePath {root path file : String} (h : filePath root path = .ok file) :
    LooksOnlyAt (.directory root) path file := by
  intro files files' hfind
  have hfile : files.isFile file = files'.isFile file := by
    unfold FileTree.isFile
    rw [hfind]
  have hread : ∀ limit, files.read file limit = files'.read file limit := by
    intro limit
    unfold FileTree.read
    rw [hfind]
  unfold resolve contains
  dsimp only
  rw [h]
  constructor
  · show (if _ then _ else _) = (if _ then _ else _)
    rw [hfile, hread]
  · exact hfile

/-- Under a directory, a path that strays is refused. Any other leads to one file, whose path goes
from the directory on by the names of the path in their order. -/
theorem directory_confined (root path : String) :
    Strays path ∧ Refuses (.directory root) path ∨
      ¬Strays path ∧ ∃ file, filePath root path = .ok file ∧
        LooksOnlyAt (.directory root) path file ∧
        normal file = normal root ++ (steps path).map .name := by
  by_cases h : Strays path
  · exact .inl ⟨h, refuses_of_strays root h⟩
  · have hfile : filePath root path = .ok (join root path) := if_pos (isInside_iff.2 h)
    refine .inr ⟨h, join root path, hfile, looksOnlyAt_of_filePath hfile, ?_⟩
    have habs : isAbsolute path = false :=
      Bool.eq_false_iff.2 fun habs => h (.inr (.inl habs))
    have hup : ".." ∉ parts path := fun hup => h (.inr (.inr hup))
    rw [normal_join root habs, filterMap_component? hup]
    rfl

end Resources

end Playhead
