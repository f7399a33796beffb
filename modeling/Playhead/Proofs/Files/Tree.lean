import Playhead.Files.Tree
import Playhead.Proofs.Files.Path
import Playhead.Proofs.State.Saves

/-!
What the changes of a file tree leave at the end of every list of names.

Making directories only adds directories. A file that is written takes its place, and the file
beside it is gone again.
-/

namespace Playhead

namespace NameMap

variable {α : Type}

theorem mem_keys_iff {m : NameMap α} {name : String} :
    name ∈ m.keys ↔ m.get? name ≠ none := by
  unfold keys
  rw [List.mem_map, Option.ne_none_iff_exists']
  constructor
  · rintro ⟨⟨_, value⟩, hmem, rfl⟩
    exact ⟨value, get?_eq_some_iff.2 hmem⟩
  · rintro ⟨value, hget⟩
    exact ⟨(name, value), get?_eq_some_iff.1 hget, rfl⟩

end NameMap

namespace FileTree

open Playhead.Path

/-- No name holds a slash. -/
def Slashless (names : List String) : Prop :=
  ∀ n ∈ names, '/' ∉ n.toList

variable {t t' t'' : FileTree} {here names others parts more : List String} {name : String}
  {n : FileNode}

theorem Slashless.append (h : Slashless names) (h' : Slashless others) :
    Slashless (names ++ others) := by
  intro n hn
  rcases List.mem_append.1 hn with hn | hn
  · exact h n hn
  · exact h' n hn

theorem Slashless.concat (h : Slashless names) (hname : '/' ∉ name.toList) :
    Slashless (names ++ [name]) :=
  h.append fun _ hn => List.mem_singleton.1 hn ▸ hname

theorem Slashless.dropLast (h : Slashless names) : Slashless names.dropLast :=
  fun n hn => h n (List.dropLast_subset names hn)

theorem slashless_nil : Slashless [] :=
  fun _ hn => absurd hn List.not_mem_nil

theorem slashless_parts (path : String) : Slashless (Path.parts path) :=
  fun _ => slashless_of_mem_parts

theorem slashless_steps (path : String) : Slashless (steps path) :=
  fun _ => slashless_of_mem_steps

theorem node?_of_ne_nil (h : names ≠ []) :
    t.node? names = t.nodes.get? ("/".intercalate names) := by
  unfold node?
  rw [if_neg (by simpa using h)]

theorem node?_put (hne : names ≠ []) (h : Slashless names) (hothers : Slashless others) :
    (t.put names n).node? others = if others = names then some n else t.node? others := by
  by_cases hnil : others = []
  · rw [hnil, if_neg fun heq => hne heq.symm]
    rfl
  · rw [node?_of_ne_nil hnil, node?_of_ne_nil hnil]
    unfold put
    rw [NameMap.get?_insert]
    by_cases heq : others = names
    · rw [if_pos heq, if_pos (by rw [heq])]
    · rw [if_neg heq, if_neg fun hkey => heq (intercalate_inj hne hnil h hothers hkey).symm]

theorem node?_erase (hne : names ≠ []) (h : Slashless names) (hothers : Slashless others) :
    node? ⟨t.nodes.erase ("/".intercalate names)⟩ others
      = if others = names then none else t.node? others := by
  by_cases hnil : others = []
  · rw [hnil, if_neg fun heq => hne heq.symm]
    rfl
  · rw [node?_of_ne_nil hnil, node?_of_ne_nil hnil, NameMap.get?_erase]
    by_cases heq : others = names
    · rw [if_pos heq, if_pos (by rw [heq])]
    · rw [if_neg heq, if_neg fun hkey => heq (intercalate_inj hne hnil h hothers hkey).symm]

/-! ### Following parts -/

/-- The place a part leads to from a directory. -/
def onward (here : List String) (part : String) : Except PathError (List String) :=
  if !isReal part then .ok here
  else if part = ".." then if here.isEmpty then .error .notFound else .ok here.dropLast
  else .ok (here ++ [part])

theorem isIdle_eq (part : String) : (part = "" || part = ".") = !isReal part := by
  unfold isReal
  by_cases hempty : part = "" <;> by_cases hdot : part = "." <;> simp [hempty, hdot]

theorem onward_idle (h : ¬ isReal name = true) : onward here name = .ok here := by
  unfold onward
  rw [if_pos (by simpa using h)]

theorem onward_plain (h : IsPlain name) : onward here name = .ok (here ++ [name]) := by
  unfold onward
  rw [h.isReal, if_neg (by decide), if_neg h.not_dots]

theorem slashless_of_onward (h : onward here name = .ok names) (hhere : Slashless here)
    (hname : '/' ∉ name.toList) : Slashless names := by
  unfold onward at h
  split at h
  · exact Except.ok.inj h ▸ hhere
  · split at h
    · split at h
      · cases h
      · exact Except.ok.inj h ▸ hhere.dropLast
    · exact Except.ok.inj h ▸ hhere.concat hname

theorem follow_cons (t : FileTree) (here : List String) (part : String) (rest : List String) :
    t.follow here (part :: rest) =
      match t.node? here with
      | none => .error .notFound
      | some (.file _) => .error .notDirectory
      | some .directory => onward here part >>= fun next => t.follow next rest := by
  rw [follow]
  cases t.node? here with
  | none => rfl
  | some node =>
    cases node with
    | file c => rfl
    | directory =>
      dsimp only
      unfold onward
      rw [isIdle_eq]
      split
      · rfl
      · split
        · split <;> rfl
        · rfl

theorem follow_cons_ok_iff {part : String} {rest : List String} :
    t.follow here (part :: rest) = .ok names ↔ t.node? here = some .directory ∧
      ∃ next, onward here part = .ok next ∧ t.follow next rest = .ok names := by
  rw [follow_cons]
  cases t.node? here with
  | none => simp
  | some node =>
    cases node with
    | file c => simp
    | directory =>
      dsimp only
      cases onward here part with
      | error e => simp [bind, Except.bind]
      | ok next => simp [bind, Except.bind]

theorem follow_append (t : FileTree) (here parts more : List String) :
    t.follow here (parts ++ more) = t.follow here parts >>= fun names => t.follow names more := by
  induction parts generalizing here with
  | nil => rfl
  | cons part rest ih =>
    rw [List.cons_append, follow_cons, follow_cons]
    cases t.node? here with
    | none => rfl
    | some node =>
      cases node with
      | file c => rfl
      | directory =>
        dsimp only
        cases onward here part with
        | error e => rfl
        | ok next => exact ih next

theorem follow_plain (h : t.node? here = some .directory) (hname : IsPlain name) :
    t.follow here [name] = .ok (here ++ [name]) :=
  follow_cons_ok_iff.2 ⟨h, _, onward_plain hname, rfl⟩

/-- Idle parts lead nowhere else. -/
theorem follow_filter_concat (t : FileTree) (here parts : List String) (name : String) :
    t.follow here (parts.filter isReal ++ [name]) = t.follow here (parts ++ [name]) := by
  induction parts generalizing here with
  | nil => rfl
  | cons part rest ih =>
    by_cases hreal : isReal part = true
    · rw [List.filter_cons_of_pos hreal, List.cons_append, List.cons_append, follow_cons,
        follow_cons]
      simp only [ih]
    · rw [List.filter_cons_of_neg hreal, ih, List.cons_append, follow_cons t here part,
        onward_idle hreal]
      -- The name that follows asks for a directory as well.
      cases hfirst : rest ++ [name] with
      | nil => exact absurd hfirst (List.concat_ne_nil _ _)
      | cons first rest =>
        rw [follow_cons]
        cases hnode : t.node? here with
        | none => rfl
        | some node =>
          cases node with
          | file c => rfl
          | directory =>
            have hsame := follow_cons t here first rest
            rw [hnode] at hsame
            exact hsame.symm

theorem follow_filter (h : t.follow here parts = .ok names) :
    t.follow here (parts.filter isReal) = .ok names := by
  induction parts generalizing here with
  | nil => exact h
  | cons part rest ih =>
    obtain ⟨hdir, next, hnext, h⟩ := follow_cons_ok_iff.1 h
    by_cases hreal : isReal part = true
    · rw [List.filter_cons_of_pos hreal]
      exact follow_cons_ok_iff.2 ⟨hdir, next, hnext, ih h⟩
    · rw [List.filter_cons_of_neg hreal]
      rw [onward_idle hreal] at hnext
      exact Except.ok.inj hnext ▸ ih h

theorem slashless_of_follow (h : t.follow here parts = .ok names) (hhere : Slashless here)
    (hparts : Slashless parts) : Slashless names := by
  induction parts generalizing here with
  | nil => exact Except.ok.inj h ▸ hhere
  | cons part rest ih =>
    obtain ⟨-, next, hnext, h⟩ := follow_cons_ok_iff.1 h
    exact ih h (slashless_of_onward hnext hhere (hparts part List.mem_cons_self))
      fun n hn => hparts n (List.mem_cons_of_mem part hn)

/-- Every directory is still there. -/
def Keeps (t t' : FileTree) : Prop :=
  ∀ names, Slashless names → t.node? names = some .directory → t'.node? names = some .directory

/-- Where directories lead, they lead in a tree that keeps them. -/
theorem Keeps.follow (hkeeps : Keeps t t') (h : t.follow here parts = .ok names)
    (hhere : Slashless here) (hparts : Slashless parts) : t'.follow here parts = .ok names := by
  induction parts generalizing here with
  | nil => exact h
  | cons part rest ih =>
    obtain ⟨hdir, next, hnext, h⟩ := follow_cons_ok_iff.1 h
    have hslash := slashless_of_onward hnext hhere (hparts part List.mem_cons_self)
    exact follow_cons_ok_iff.2 ⟨hkeeps here hhere hdir, next, hnext,
      ih h hslash fun n hn => hparts n (List.mem_cons_of_mem part hn)⟩

/-! ### Making directories -/

/-- Directories were made where nothing was. -/
def Grows (t t' : FileTree) : Prop :=
  ∀ names, t'.node? names = t.node? names ∨
    t.node? names = none ∧ t'.node? names = some .directory

theorem Grows.refl (t : FileTree) : Grows t t :=
  fun _ => .inl rfl

theorem Grows.trans (h : Grows t t') (h' : Grows t' t'') : Grows t t'' := by
  intro names
  rcases h' names with h' | ⟨hnone', hdir'⟩
  · rw [h']
    exact h names
  · rcases h names with h | ⟨hnone, hdir⟩
    · exact .inr ⟨h ▸ hnone', hdir'⟩
    · rw [hdir] at hnone'
      cases hnone'

theorem Grows.keeps (h : Grows t t') (hdir : t.node? names = some .directory) :
    t'.node? names = some .directory := by
  rcases h names with h | ⟨hnone, -⟩
  · exact h.trans hdir
  · rw [hdir] at hnone
    cases hnone

theorem grows_put (hne : names ≠ []) (h : t.node? names = none) :
    Grows t (t.put names .directory) := by
  intro others
  by_cases hnil : others = []
  · rw [hnil]
    exact .inl rfl
  · rw [node?_of_ne_nil hne] at h
    rw [node?_of_ne_nil hnil, node?_of_ne_nil hnil]
    unfold put
    rw [NameMap.get?_insert]
    split
    · rename_i hkey
      exact .inr ⟨hkey ▸ h, rfl⟩
    · exact .inl rfl

theorem makeAlong_plain (hnone : t.node? (here ++ [name]) = none) (h : IsPlain name)
    (hname : isName name = true) :
    t.makeAlong here [name] = (t.put (here ++ [name]) .directory, true) := by
  rw [makeAlong, isIdle_eq, h.isReal, if_neg (by decide), if_neg h.not_dots]
  dsimp only
  rw [hnone]
  exact if_pos hname

theorem makeAlong_filter (t : FileTree) (here parts : List String) :
    t.makeAlong here (parts.filter isReal) = t.makeAlong here parts := by
  induction parts generalizing t here with
  | nil => rfl
  | cons part rest ih =>
    rw [makeAlong, isIdle_eq]
    by_cases hreal : isReal part = true
    · rw [List.filter_cons_of_pos hreal, makeAlong, isIdle_eq]
      simp only [ih]
    · rw [List.filter_cons_of_neg hreal, if_pos (by simpa using hreal), ih]

/-- All directories from the top to a place are there. -/
def Open (t : FileTree) (here : List String) : Prop :=
  ∀ names, names <+: here → t.node? names = some .directory

theorem Open.of_initial (h : Open t here) (hinit : names <+: here) : Open t names :=
  fun ns hns => h ns (hns.trans hinit)

theorem Open.concat (h : Open t here) (hdir : t.node? (here ++ [name]) = some .directory) :
    Open t (here ++ [name]) := by
  intro ns hns
  rcases List.prefix_concat_iff.1 hns with rfl | hns
  · exact hdir
  · exact h ns hns

theorem Open.grows (h : Open t here) (hgrows : Grows t t') : Open t' here :=
  fun ns hns => hgrows.keeps (h ns hns)

/-- What making a directory at the next place does. -/
theorem makeAlong_cons_inv {part : String} {rest : List String}
    (h : t.makeAlong here (part :: rest) = (t', true)) :
    ∃ t₁ next, onward here part = .ok next ∧ Grows t t₁ ∧
      (Open t here → Open t₁ next) ∧ t₁.makeAlong next rest = (t', true) ∧
        ∀ more, t.makeAlong here (part :: rest ++ more) = t₁.makeAlong next (rest ++ more) := by
  have happend : ∀ more, part :: rest ++ more = part :: (rest ++ more) := fun _ => rfl
  simp only [happend, makeAlong, isIdle_eq] at h ⊢
  unfold onward
  by_cases hidle : (!isReal part) = true
  · simp only [if_pos hidle] at h ⊢
    exact ⟨t, here, rfl, .refl t, id, h, fun _ => rfl⟩
  · simp only [if_neg hidle] at h ⊢
    by_cases hup : part = ".."
    · simp only [if_pos hup] at h ⊢
      by_cases htop : here.isEmpty = true
      · rw [if_pos htop] at h
        cases h
      · simp only [if_neg htop] at h ⊢
        exact ⟨t, here.dropLast, rfl, .refl t, fun hopen => hopen.of_initial here.dropLast_prefix, h,
          fun _ => rfl⟩
    · simp only [if_neg hup] at h ⊢
      have hne : here ++ [part] ≠ [] := List.concat_ne_nil _ _
      cases hnode : t.node? (here ++ [part]) with
      | none =>
        simp only [hnode] at h ⊢
        by_cases hname : isName part = true
        · simp only [if_pos hname] at h ⊢
          have hgrows := grows_put hne hnode
          refine ⟨_, _, rfl, hgrows, fun hopen => (hopen.grows hgrows).concat ?_, h, fun _ => rfl⟩
          rw [node?_of_ne_nil hne]
          unfold put
          rw [NameMap.get?_insert, if_pos rfl]
        · rw [if_neg hname] at h
          cases h
      | some node =>
        cases node with
        | file c =>
          rw [hnode] at h
          cases h
        | directory =>
          simp only [hnode] at h ⊢
          exact ⟨t, _, rfl, .refl t, fun hopen => hopen.concat hnode, h, fun _ => rfl⟩

theorem grows_makeAlong (h : t.makeAlong here parts = (t', true)) : Grows t t' := by
  induction parts generalizing t here with
  | nil =>
    cases h
    exact .refl _
  | cons part rest ih =>
    obtain ⟨t₁, next, -, hgrows, -, h, -⟩ := makeAlong_cons_inv h
    exact hgrows.trans (ih h)

/-- Where directories were made, the parts lead. -/
theorem follow_of_makeAlong (h : t.makeAlong here parts = (t', true)) (hopen : Open t here) :
    ∃ names, t'.follow here parts = .ok names ∧ Open t' names := by
  induction parts generalizing t here with
  | nil =>
    cases h
    exact ⟨here, rfl, hopen⟩
  | cons part rest ih =>
    obtain ⟨t₁, next, hnext, hgrows, hopen₁, h, -⟩ := makeAlong_cons_inv h
    obtain ⟨names, hfollow, hnames⟩ := ih h (hopen₁ hopen)
    have hdir := (hgrows.trans (grows_makeAlong h)).keeps (hopen here (List.prefix_refl here))
    exact ⟨names, follow_cons_ok_iff.2 ⟨hdir, next, hnext, hfollow⟩, hnames⟩

theorem makeAlong_append (h : t.makeAlong here parts = (t', true))
    (hfollow : t'.follow here parts = .ok names) (more : List String) :
    t.makeAlong here (parts ++ more) = t'.makeAlong names more := by
  induction parts generalizing t here with
  | nil =>
    cases h
    cases hfollow
    rfl
  | cons part rest ih =>
    obtain ⟨t₁, next, hnext, -, -, h, happend⟩ := makeAlong_cons_inv h
    obtain ⟨-, _, hnext', hfollow⟩ := follow_cons_ok_iff.1 hfollow
    rw [hnext] at hnext'
    cases hnext'
    rw [happend]
    exact ih h hfollow

theorem directory_of_follow (h : t.follow here parts = .ok names)
    (hdir : t.node? names = some .directory) : t.node? here = some .directory := by
  cases parts with
  | nil => exact Except.ok.inj h ▸ hdir
  | cons part rest => exact (follow_cons_ok_iff.1 h).1

/-- Where directories lead, none is made. -/
theorem makeAlong_of_follow (h : t.follow here parts = .ok names)
    (hdir : t.node? names = some .directory) : t.makeAlong here parts = (t, true) := by
  induction parts generalizing here with
  | nil => rfl
  | cons part rest ih =>
    obtain ⟨-, next, hnext, h⟩ := follow_cons_ok_iff.1 h
    have hnode := directory_of_follow h hdir
    rw [makeAlong, isIdle_eq]
    unfold onward at hnext
    split at hnext
    · rw [if_pos ‹_›, Except.ok.inj hnext]
      exact ih h
    · rw [if_neg ‹_›]
      split at hnext
      · rw [if_pos ‹_›]
        split at hnext
        · cases hnext
        · rw [if_neg ‹_›, Except.ok.inj hnext]
          exact ih h
      · rw [if_neg ‹_›]
        dsimp only
        rw [Except.ok.inj hnext, hnode]
        exact ih h

/-- In a tree with fewer directories, the parts lead to the same place or to nothing. -/
theorem Grows.follow (h : Grows t t') (here parts : List String) :
    t.follow here parts = t'.follow here parts ∨ t.follow here parts = .error .notFound := by
  induction parts generalizing here with
  | nil => exact .inl rfl
  | cons part rest ih =>
    rw [follow_cons, follow_cons]
    rcases h here with hsame | ⟨hnone, -⟩
    · rw [hsame]
      cases t.node? here with
      | none => exact .inl rfl
      | some node =>
        cases node with
        | file c => exact .inl rfl
        | directory =>
          dsimp only
          cases onward here part with
          | error e => exact .inl rfl
          | ok next => exact ih next
    · rw [hnone]
      exact .inr rfl

/-! ### Paths below a directory -/

variable {base path : String} {b : ByteArray} {c : FileContent}

theorem place_join (t : FileTree) (hbase : isAbsolute base = false) (h : IsPlain name) :
    t.place (join base name) = t.follow [] (steps base ++ [name]) := by
  obtain ⟨above, habove⟩ := parts_join base h
  have hsteps : steps base ++ [name] = above.filter isReal ++ [name] := by
    rw [← steps_join base h]
    unfold steps
    rw [habove, List.filter_append, List.filter_cons_of_pos h.isReal]
    rfl
  unfold place
  rw [isAbsolute_join hbase h.slashless, decide_eq_false (join_ne_empty base h),
    if_neg (by decide), habove, hsteps, follow_filter_concat]

theorem makeDirectories_eq (t : FileTree) (hpath : isAbsolute path = false) :
    t.makeDirectories path = t.makeAlong [] (steps path) := by
  unfold makeDirectories
  by_cases hempty : path = ""
  · rw [if_pos hempty, hempty]
    rfl
  · rw [if_neg hempty, if_neg (by simp [hpath])]
    exact (makeAlong_filter t [] (parts path)).symm

theorem Keeps.place (hkeeps : Keeps t t') (h : t.place path = .ok names) :
    t'.place path = .ok names := by
  unfold FileTree.place at h ⊢
  split at h
  · cases h
  · rw [if_neg ‹_›]
    exact hkeeps.follow h slashless_nil (slashless_parts path)

theorem slashless_of_place (h : t.place path = .ok names) : Slashless names := by
  unfold place at h
  split at h
  · cases h
  · exact slashless_of_follow h slashless_nil (slashless_parts path)

theorem keeps_put (hne : names ≠ []) (h : Slashless names)
    (hfile : t.node? names ≠ some .directory) : Keeps t (t.put names n) := by
  intro others hothers hdir
  have hother : others ≠ names := by
    rintro rfl
    exact hfile hdir
  rw [node?_put hne h hothers, if_neg hother, hdir]

theorem keeps_erase (hne : names ≠ []) (h : Slashless names)
    (hfile : t.node? names ≠ some .directory) :
    Keeps t ⟨t.nodes.erase ("/".intercalate names)⟩ := by
  intro others hothers hdir
  have hother : others ≠ names := by
    rintro rfl
    exact hfile hdir
  rw [node?_erase hne h hothers, if_neg hother, hdir]

theorem find_of_place (h : t.place path = .ok names) :
    t.find path = match t.node? names with
      | some n => .ok n
      | none => .error .notFound := by
  unfold find
  rw [h]
  rfl

theorem remove_of_place (h : t.place path = .ok names) (hfile : t.node? names = some (.file c)) :
    t.remove path = .ok ⟨t.nodes.erase ("/".intercalate names)⟩ := by
  unfold remove
  rw [h]
  dsimp only [bind, Except.bind]
  rw [hfile]

theorem create_of_place (h : t.place path = .ok (names ++ [name]))
    (hdir : t.node? names = some .directory)
    (hfile : t.node? (names ++ [name]) ≠ some .directory) (hname : isName name = true) :
    t.create path c = some (t.put (names ++ [name]) (.file c)) := by
  unfold create
  rw [h]
  dsimp only
  rw [List.dropLast_concat, hdir, List.getLast?_concat]
  split
  · rename_i hnode
    exact absurd hnode hfile
  · exact if_pos hname
  · rename_i hnode
    exact absurd rfl hnode

/-- A file that is moved inside its directory is at its new place and gone from the old one. -/
theorem move_of_place {source target other : String}
    (hsource : t.place source = .ok (names ++ [other]))
    (hnode : t.node? (names ++ [other]) = some (.file c))
    (htarget : t.place target = .ok (names ++ [name])) (hdir : t.node? names = some .directory)
    (hfile : t.node? (names ++ [name]) ≠ some .directory) (hname : isName name = true) :
    ∃ t', t.move source target = some t' ∧
      ∀ others, Slashless others → t'.node? others =
        if others = names ++ [name] then some (.file c)
        else if others = names ++ [other] then none else t.node? others := by
  have hslash := slashless_of_place hsource
  have hslash' := slashless_of_place htarget
  have hnames : Slashless names := fun n hn => hslash n (List.mem_append_left _ hn)
  have hkeeps := keeps_erase (List.concat_ne_nil other names) hslash (t := t) (by rw [hnode]; simp)
  unfold move
  rw [find_of_place hsource, hnode, remove_of_place hsource hnode]
  dsimp only
  rw [create_of_place (hkeeps.place htarget) (hkeeps names hnames hdir) ?_ hname]
  · refine ⟨_, rfl, fun others hothers => ?_⟩
    rw [node?_put (List.concat_ne_nil name names) hslash' hothers,
      node?_erase (List.concat_ne_nil other names) hslash hothers]
  · rw [node?_erase (List.concat_ne_nil other names) hslash hslash']
    split
    · exact nofun
    · exact hfile

theorem isPlain_beside (h : IsPlain name) : IsPlain (name ++ ".tmp") := by
  have hlen : 4 ≤ (name ++ ".tmp").length := by
    rw [String.length_append]
    exact Nat.le_add_left _ _
  refine ⟨?_, ?_, ?_, ?_⟩
  · rw [String.toList_append, List.mem_append]
    exact not_or.2 ⟨h.slashless, by decide⟩
  all_goals
    intro heq
    rw [heq] at hlen
    exact absurd hlen (by decide)

theorem ne_beside (name : String) : name ≠ name ++ ".tmp" := by
  intro heq
  have hlen := congrArg String.length heq
  rw [String.length_append] at hlen
  exact absurd hlen (Nat.ne_of_lt (Nat.lt_add_of_pos_right (by decide)))

/-- Writing leaves the directories on the way and the file, and nothing beside it. -/
theorem write_join {scope : String} {directory : List String} (hbase : isAbsolute base = false)
    (hscope : IsPlain scope) (hplain : IsPlain name) (hname : isName name = true)
    (hbeside : isName (name ++ ".tmp") = true)
    (hmade : t.makeAlong [] (steps base ++ [scope]) = (t', true))
    (hfollow : t'.follow [] (steps base ++ [scope]) = .ok directory)
    (hdir : t'.node? directory = some .directory)
    (hfile : t'.node? (directory ++ [name]) ≠ some .directory)
    (htmp : t'.node? (directory ++ [name ++ ".tmp"]) ≠ some .directory) :
    ∃ t'', t.write (join (join base scope) name) b = (t'', .ok ()) ∧
      ∀ names, Slashless names → t''.node? names =
        if names = directory ++ [name] then some (.file (.bytes b))
        else if names = directory ++ [name ++ ".tmp"] then none else t'.node? names := by
  have hpath := isAbsolute_join hbase hscope.slashless
  have hplace : ∀ {file : String}, IsPlain file →
      t'.place (join (join base scope) file) = .ok (directory ++ [file]) := by
    intro file hfile
    rw [place_join t' hpath hfile, steps_join base hscope, follow_append, hfollow]
    exact follow_plain hdir hfile
  have htarget := hplace hplain
  have hsource := hplace (isPlain_beside hplain)
  have hslash := slashless_of_place hsource
  have hput : ∀ {others}, Slashless others →
      (t'.put (directory ++ [name ++ ".tmp"]) (.file (.bytes b))).node? others =
        if others = directory ++ [name ++ ".tmp"] then some (.file (.bytes b))
        else t'.node? others :=
    node?_put (List.concat_ne_nil (name ++ ".tmp") directory) hslash
  have hkeeps := keeps_put (List.concat_ne_nil (name ++ ".tmp") directory) hslash htmp
    (n := .file (.bytes b))
  have hother : directory ++ [name] ≠ directory ++ [name ++ ".tmp"] := fun heq =>
    ne_beside name (List.cons.inj (List.append_cancel_left heq)).1
  obtain ⟨t'', hmove, hnodes⟩ := move_of_place (hkeeps.place hsource) (c := .bytes b)
    (by rw [hput hslash, if_pos rfl]) (hkeeps.place htarget)
    (hkeeps directory (fun n hn => hslash n (List.mem_append_left _ hn)) hdir)
    (by rw [hput (slashless_of_place htarget), if_neg hother]; exact hfile) hname
  refine ⟨t'', ?_, fun names hnames => ?_⟩
  · unfold write
    rw [parent?_join_join hbase hscope hplain, fileName?_join_join base hscope hplain]
    dsimp only [Option.map_some, Option.getD_some]
    rw [makeDirectories_eq t hpath, steps_join base hscope, hmade]
    dsimp only
    rw [withFileName_join_join hbase hscope hplain, create_of_place hsource hdir htmp hbeside]
    dsimp only
    rw [hmove]
  · rw [hnodes names hnames]
    split
    · rfl
    · split
      · rfl
      · rw [hput hnames, if_neg ‹_›]

theorem childName?_eq_some_iff {key : String} (hne : names ≠ []) :
    childName? names key = some name ↔
      '/' ∉ name.toList ∧ key = "/".intercalate (names ++ [name]) := by
  have habove : (if names.isEmpty then "" else "/".intercalate names ++ "/")
      = "/".intercalate names ++ "/" := if_neg (by simpa using hne)
  unfold childName?
  dsimp only
  rw [habove, intercalate_concat hne]
  generalize "/".intercalate names ++ "/" = above
  constructor
  · intro h
    split at h
    · rename_i hinit
      obtain ⟨rest, hrest⟩ := List.isPrefixOf_iff_prefix.1 hinit
      rw [← hrest, ← String.length_toList, List.drop_left] at h
      split at h
      · cases h
      · rename_i hslash
        cases h
        rw [String.toList_ofList]
        refine ⟨by simpa using hslash, String.toList_inj.1 ?_⟩
        rw [String.toList_append, String.toList_ofList, hrest]
    · cases h
  · rintro ⟨hslash, rfl⟩
    rw [String.toList_append, if_pos (List.isPrefixOf_iff_prefix.2 (List.prefix_append _ _)),
      ← String.length_toList, List.drop_left, if_neg (by simpa using hslash), String.ofList_toList]

/-- The names listed are those of the nodes below a directory. -/
theorem list_of_place (h : t.place path = .ok names) (hdir : t.node? names = some .directory)
    (hne : names ≠ []) :
    ∃ l, t.list path = .ok l ∧
      ∀ name, name ∈ l ↔ '/' ∉ name.toList ∧ t.node? (names ++ [name]) ≠ none := by
  unfold list
  rw [h]
  dsimp only [bind, Except.bind]
  rw [hdir]
  refine ⟨_, rfl, fun name => ?_⟩
  rw [List.mem_filterMap, node?_of_ne_nil (List.concat_ne_nil name names), ← NameMap.mem_keys_iff]
  constructor
  · rintro ⟨key, hkey, hchild⟩
    obtain ⟨hslash, rfl⟩ := (childName?_eq_some_iff hne).1 hchild
    exact ⟨hslash, hkey⟩
  · rintro ⟨hslash, hkey⟩
    exact ⟨_, hkey, (childName?_eq_some_iff hne).2 ⟨hslash, rfl⟩⟩

end FileTree

end Playhead
