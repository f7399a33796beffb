import Playhead.Files.Path

/-!
Paths below a directory: their parts, their names and the directory above them.
-/

namespace Playhead

namespace Text

variable {sep : Char}

theorem pieces_append_sep (cs ds : List Char) :
    pieces sep (cs ++ sep :: ds) = pieces sep cs ++ pieces sep ds := by
  induction cs with
  | nil => simp [pieces]
  | cons c cs ih =>
    rw [List.cons_append, pieces, pieces, ih]
    split
    · rfl
    · cases h : pieces sep cs with
      | nil => exact absurd h (pieces_ne_nil sep cs)
      | cons p more => rfl

theorem pieces_of_not_mem {cs : List Char} (h : sep ∉ cs) : pieces sep cs = [cs] := by
  induction cs with
  | nil => rfl
  | cons c cs ih =>
    have hc : ¬ c = sep := fun heq => h (heq ▸ List.mem_cons_self)
    rw [pieces, ih fun hmem => h (List.mem_cons_of_mem c hmem), if_neg hc]

theorem not_mem_of_mem_pieces {cs p : List Char} (h : p ∈ pieces sep cs) : sep ∉ p := by
  induction cs generalizing p with
  | nil =>
    cases List.mem_singleton.1 h
    exact List.not_mem_nil
  | cons c cs ih =>
    rw [pieces] at h
    split at h
    · rcases List.mem_cons.1 h with rfl | h
      · exact List.not_mem_nil
      · exact ih h
    · rename_i hc
      cases hp : pieces sep cs with
      | nil => exact absurd hp (pieces_ne_nil sep cs)
      | cons q more =>
        rw [hp] at h ih
        rcases List.mem_cons.1 h with rfl | h
        · intro hmem
          rcases List.mem_cons.1 hmem with heq | hmem
          · exact hc heq.symm
          · exact ih List.mem_cons_self hmem
        · exact ih (List.mem_cons_of_mem q h)

theorem joinPieces_cons_cons (p q : List Char) (l : List (List Char)) :
    joinPieces sep (p :: q :: l) = p ++ sep :: joinPieces sep (q :: l) := rfl

theorem joinPieces_eq_intercalate (l : List (List Char)) :
    joinPieces sep l = [sep].intercalate l := by
  induction l with
  | nil => rfl
  | cons p l ih =>
    cases l with
    | nil => exact List.intercalate_singleton.symm
    | cons q l =>
      rw [joinPieces_cons_cons, ih, List.intercalate_cons_cons, List.append_assoc]
      rfl

/-- Pieces without a separator in them are found again. -/
theorem pieces_joinPieces {l : List (List Char)} (hne : l ≠ []) (h : ∀ p ∈ l, sep ∉ p) :
    pieces sep (joinPieces sep l) = l := by
  induction l with
  | nil => exact absurd rfl hne
  | cons p l ih =>
    have hp := pieces_of_not_mem (h p List.mem_cons_self)
    cases l with
    | nil => exact hp
    | cons q l =>
      rw [joinPieces_cons_cons, pieces_append_sep, hp,
        ih (List.cons_ne_nil q l) fun r hr => h r (List.mem_cons_of_mem p hr)]
      rfl

end Text

namespace Path

open Text

/-- A name that stands for a file or a directory of its own. -/
structure IsPlain (name : String) : Prop where
  slashless : '/' ∉ name.toList
  nonempty : name ≠ ""
  not_dot : name ≠ "."
  not_dots : name ≠ ".."

/-- Whether a part of a path leads on from a directory. -/
def isReal (part : String) : Bool :=
  part ≠ "" && part ≠ "."

/-- The parts of a path that lead from one directory to another. -/
def steps (path : String) : List String :=
  (parts path).filter isReal

variable {base name path : String}

theorem IsPlain.isReal (h : IsPlain name) : isReal name = true := by
  unfold Path.isReal
  rw [decide_eq_true h.nonempty, decide_eq_true h.not_dot]
  rfl

theorem slashless_of_mem_parts (h : name ∈ parts path) : '/' ∉ name.toList := by
  obtain ⟨p, hp, rfl⟩ := List.mem_map.1 h
  rw [String.toList_ofList]
  exact not_mem_of_mem_pieces hp

theorem slashless_of_mem_steps (h : name ∈ steps path) : '/' ∉ name.toList :=
  slashless_of_mem_parts (List.mem_filter.1 h).1

theorem parts_append_slash (a b : String) : parts (a ++ "/" ++ b) = parts a ++ parts b := by
  unfold parts
  rw [String.toList_append, String.toList_append, List.append_assoc,
    show "/".toList ++ b.toList = '/' :: b.toList from rfl, pieces_append_sep, List.map_append]

theorem parts_of_plain (h : '/' ∉ name.toList) : parts name = [name] := by
  unfold parts
  rw [pieces_of_not_mem h, List.map_singleton, String.ofList_toList]

theorem exists_slash_of_getLast? (h : base.toList.getLast? = some '/') :
    ∃ a : String, base = a ++ "/" := by
  obtain ⟨cs, hcs⟩ := List.getLast?_eq_some_iff.1 h
  refine ⟨String.ofList cs, String.toList_inj.1 ?_⟩
  rw [hcs, String.toList_append, String.toList_ofList]
  rfl

theorem isAbsolute_of_slashless (h : '/' ∉ name.toList) : isAbsolute name = false :=
  decide_eq_false fun habs => h (List.mem_of_mem_head? habs)

theorem append_slash_ne_empty (a : String) : a ++ "/" ≠ "" := by
  intro hempty
  have hlen := congrArg String.length hempty
  rw [String.length_append] at hlen
  exact Nat.succ_ne_zero _ hlen

theorem isAbsolute_append {a : String} (ha : a ≠ "") (b : String) :
    isAbsolute (a ++ b) = isAbsolute a := by
  unfold isAbsolute
  rw [String.toList_append]
  cases h : a.toList with
  | nil => exact absurd (String.toList_eq_nil_iff.1 h) ha
  | cons c cs => rfl

/-- The ways in which a path that is not absolute is put below another one. -/
theorem join_cases (base : String) (h : isAbsolute path = false) :
    base = "" ∧ join base path = path ∨
      (∃ a, base = a ++ "/" ∧ join base path = a ++ "/" ++ path) ∨
        base ≠ "" ∧ join base path = base ++ "/" ++ path := by
  unfold join
  rw [h]
  by_cases hempty : base = ""
  · exact .inl ⟨hempty, by rw [hempty]; rfl⟩
  · rw [decide_eq_false hempty]
    right
    by_cases hslash : base.toList.getLast? = some '/'
    · obtain ⟨a, ha⟩ := exists_slash_of_getLast? hslash
      exact .inl ⟨a, ha, by rw [if_pos hslash, ha]; rfl⟩
    · exact .inr ⟨hempty, by rw [if_neg hslash]; rfl⟩

theorem steps_of_plain (h : IsPlain name) : steps name = [name] := by
  unfold steps
  rw [parts_of_plain h.slashless, List.filter_cons_of_pos h.isReal]
  rfl

theorem steps_join (base : String) (h : IsPlain name) :
    steps (join base name) = steps base ++ [name] := by
  have hname := steps_of_plain h
  have happend : ∀ a, steps (a ++ "/" ++ name) = steps a ++ [name] := by
    intro a
    rw [← hname]
    unfold steps
    rw [parts_append_slash, List.filter_append]
  have habs := isAbsolute_of_slashless h.slashless
  rcases join_cases base habs with ⟨rfl, hjoin⟩ | ⟨a, rfl, hjoin⟩ | ⟨hne, hjoin⟩
  · rw [hjoin, hname]
    rfl
  · rw [hjoin, happend]
    refine congrArg (· ++ [name]) ?_
    have hslash : parts (a ++ "/") = parts a ++ [""] := by
      have h := parts_append_slash a ""
      rw [String.append_empty] at h
      exact h
    unfold steps
    rw [hslash, List.filter_append]
    exact (List.append_nil _).symm
  · rw [hjoin, happend]

/-- The parts of a path below a directory end in its name. -/
theorem parts_join (base : String) (h : IsPlain name) :
    ∃ above, parts (join base name) = above ++ [name] := by
  have hname := parts_of_plain h.slashless
  have habs := isAbsolute_of_slashless h.slashless
  rcases join_cases base habs with ⟨rfl, hjoin⟩ | ⟨a, rfl, hjoin⟩ | ⟨hne, hjoin⟩
  · exact ⟨[], by rw [hjoin, hname]; rfl⟩
  · exact ⟨parts a, by rw [hjoin, parts_append_slash, hname]⟩
  · exact ⟨parts base, by rw [hjoin, parts_append_slash, hname]⟩

theorem join_ne_empty (base : String) (h : IsPlain name) : join base name ≠ "" := by
  intro hempty
  have hsteps := steps_join base h
  rw [hempty, show steps "" = [] from by decide] at hsteps
  exact List.concat_ne_nil name _ hsteps.symm

theorem isAbsolute_join (hbase : isAbsolute base = false) (h : '/' ∉ name.toList) :
    isAbsolute (join base name) = false := by
  have habs := isAbsolute_of_slashless h
  rcases join_cases base habs with ⟨rfl, hjoin⟩ | ⟨a, rfl, hjoin⟩ | ⟨hne, hjoin⟩
  · rw [hjoin, habs]
  · rw [hjoin, isAbsolute_append (append_slash_ne_empty a), hbase]
  · rw [hjoin, String.append_assoc, isAbsolute_append hne, hbase]

/-- A path below another one ends in no slash, so the next name stands behind a slash. -/
theorem join_join (base : String) (h : IsPlain name) {file : String}
    (hfile : '/' ∉ file.toList) :
    join (join base name) file = join base name ++ "/" ++ file := by
  rcases join_cases (join base name) (isAbsolute_of_slashless hfile) with
    ⟨hempty, -⟩ | ⟨a, ha, -⟩ | ⟨-, hjoin⟩
  · exact absurd hempty (join_ne_empty base h)
  · obtain ⟨above, hparts⟩ := parts_join base h
    have hslash := parts_append_slash a ""
    rw [String.append_empty, ← ha, hparts] at hslash
    have hlast := congrArg List.getLast? hslash
    rw [List.getLast?_concat, show parts "" = [""] from rfl, List.getLast?_concat] at hlast
    exact absurd (Option.some.inj hlast) h.nonempty
  · exact hjoin

theorem parts_join_join (base : String) (h : IsPlain name) {file : String}
    (hfile : '/' ∉ file.toList) :
    parts (join (join base name) file) = parts (join base name) ++ [file] := by
  rw [join_join base h hfile, parts_append_slash, parts_of_plain hfile]

theorem component?_of_plain (h : IsPlain name) : component? name = some (.name name) := by
  unfold component?
  rw [if_neg (by simp [h.nonempty, h.not_dot]), if_neg h.not_dots]

theorem components_getLast? {above : List String} (h : IsPlain name)
    (hparts : parts path = above ++ [name]) : (components path).getLast? = some (.name name) := by
  have hlast : ∀ above : List String,
      ((above ++ [name]).filterMap component?).getLast? = some (.name name) := by
    intro above
    rw [List.filterMap_append, List.filterMap_cons, component?_of_plain h]
    exact List.getLast?_concat
  unfold components
  rw [hparts]
  split
  · rw [List.getLast?_cons, hlast]
    rfl
  · split
    · rename_i rest hrest
      cases above with
      | nil => exact absurd (List.cons.inj hrest).1 h.not_dot
      | cons first above =>
        have htail : above ++ [name] = rest := (List.cons.inj hrest).2
        rw [← htail, List.getLast?_cons, hlast]
        rfl
    · exact hlast above

theorem fileName?_join_join (base : String) (h : IsPlain name) {file : String}
    (hfile : IsPlain file) : fileName? (join (join base name) file) = some file := by
  unfold fileName?
  rw [components_getLast? hfile (parts_join_join base h hfile.slashless)]

theorem dropIdle_of_real {rest : List String} (h : isReal name = true) :
    dropIdle (name :: rest) = name :: rest := by
  unfold isReal at h
  rw [Bool.and_eq_true, decide_eq_true_iff, decide_eq_true_iff] at h
  rw [dropIdle, if_neg (by simp [h.1, h.2])]

theorem intercalate_parts (path : String) : "/".intercalate (parts path) = path := by
  apply String.toList_inj.1
  unfold parts
  rw [String.toList_intercalate, List.map_map,
    show String.toList ∘ String.ofList = id from funext fun _ => String.toList_ofList, List.map_id,
    show "/".toList = ['/'] from rfl, ← joinPieces_eq_intercalate, joinPieces_pieces]

theorem parent?_join_join (hbase : isAbsolute base = false) (h : IsPlain name) {file : String}
    (hfile : IsPlain file) :
    parent? (join (join base name) file) = some (join base name) := by
  obtain ⟨above, habove⟩ := parts_join base h
  have hparts := parts_join_join base h hfile.slashless
  unfold parent?
  rw [components_getLast? hfile hparts]
  dsimp only
  rw [hparts, List.reverse_concat, dropIdle_of_real hfile.isReal]
  dsimp only
  rw [habove, List.reverse_concat, dropIdle_of_real h.isReal, ← List.reverse_concat,
    List.reverse_reverse, ← habove, intercalate_parts,
    isAbsolute_join (isAbsolute_join hbase h.slashless) hfile.slashless]
  rfl

/-- A file beside another one. -/
theorem withFileName_join_join (hbase : isAbsolute base = false) (h : IsPlain name)
    {file : String} (hfile : IsPlain file) (other : String) :
    withFileName (join (join base name) file) other = join (join base name) other := by
  unfold withFileName
  rw [parent?_join_join hbase h hfile]
  rfl

/-- Lists of names are told apart by their paths. -/
theorem intercalate_inj {names others : List String} (hne : names ≠ []) (hne' : others ≠ [])
    (h : ∀ n ∈ names, '/' ∉ n.toList) (h' : ∀ n ∈ others, '/' ∉ n.toList)
    (heq : "/".intercalate names = "/".intercalate others) : names = others := by
  have hpieces : ∀ l : List String, l ≠ [] → (∀ n ∈ l, '/' ∉ n.toList) →
      pieces '/' ("/".intercalate l).toList = l.map String.toList := by
    intro l hl hslash
    rw [String.toList_intercalate, show "/".toList = ['/'] from rfl, ← joinPieces_eq_intercalate]
    refine pieces_joinPieces (fun hnil => hl (List.map_eq_nil_iff.1 hnil)) fun p hp => ?_
    obtain ⟨n, hn, rfl⟩ := List.mem_map.1 hp
    exact hslash n hn
  have hmap := hpieces names hne h
  rw [heq, hpieces others hne' h'] at hmap
  exact (List.map_inj_right fun _ _ => String.toList_inj.1).1 hmap.symm

theorem intercalate_concat {names : List String} (h : names ≠ []) (name : String) :
    "/".intercalate (names ++ [name]) = "/".intercalate names ++ "/" ++ name := by
  rw [String.intercalate_append_of_ne_nil h (List.cons_ne_nil name []),
    String.intercalate_singleton]

/-- A name is cut at a dot if no dot follows it. -/
theorem splitName_eq {stem ext : String} (hstem : stem ≠ "") (hext : '.' ∉ ext.toList) :
    splitName (stem ++ "." ++ ext) = (stem, some ext) := by
  have hback : (stem ++ "." ++ ext).toList.reverse
      = ext.toList.reverse ++ '.' :: stem.toList.reverse := by
    rw [String.toList_append, String.toList_append, List.reverse_append, List.reverse_append]
    rfl
  have hnot : ∀ c ∈ ext.toList.reverse, (decide (c ≠ '.')) = true := by
    intro c hc
    exact decide_eq_true fun heq => hext (heq ▸ List.mem_reverse.1 hc)
  unfold splitName
  dsimp only
  rw [hback, List.dropWhile_append_of_pos hnot, List.takeWhile_append_of_pos hnot]
  rw [List.dropWhile_cons_of_neg (by decide), List.takeWhile_cons_of_neg (by decide)]
  dsimp only
  rw [if_neg, List.reverse_reverse, List.append_nil, List.reverse_reverse, String.ofList_toList,
    String.ofList_toList]
  simpa using hstem

theorem eq_of_splitName {stem ext : String} (h : splitName name = (stem, some ext)) :
    name = stem ++ "." ++ ext := by
  unfold splitName at h
  dsimp only at h
  generalize hback : name.toList.reverse = back at h
  split at h
  · rename_i c rest hrest
    split at h
    · cases h
    · obtain ⟨hstem, hext⟩ := Prod.mk.inj h
      have hdot := List.head?_dropWhile_not (fun c => decide (c ≠ '.')) back
      rw [hrest] at hdot
      have hc : c = '.' := by simpa using hdot
      have hcut := List.takeWhile_append_dropWhile (p := fun c => decide (c ≠ '.')) (l := back)
      rw [hrest, ← hback, hc] at hcut
      apply String.toList_inj.1
      rw [← List.reverse_reverse name.toList, ← hcut, List.reverse_append, List.reverse_cons,
        String.toList_append, String.toList_append, ← hstem, ← Option.some.inj hext,
        String.toList_ofList, hback]
      exact congrArg _ String.toList_ofList.symm
  · cases h

end Path

end Playhead
