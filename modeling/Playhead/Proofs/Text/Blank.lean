import Mathlib.Data.List.TakeWhile
import Playhead.Text.Numeric

/-!
Blanks. They are no characters of names, and a text is trimmed piece by piece from its end.
-/

namespace Playhead.Text

/-- The code points of blanks. -/
def blankPoints : List Nat :=
  List.range' 0x09 5 ++ [0x20, 0x85, 0xA0, 0x1680] ++ List.range' 0x2000 11 ++
    [0x2028, 0x2029, 0x202F, 0x205F, 0x3000]

theorem mem_blankPoints {c : Char} (h : isBlank c = true) : c.toNat ∈ blankPoints := by
  simp only [isBlank, Bool.or_eq_true, Bool.and_eq_true, decide_eq_true_eq, beq_iff_eq] at h
  simp only [blankPoints, List.mem_append, List.mem_cons, List.not_mem_nil, List.mem_range'_1]
  omega

theorem isAlphanumeric_of_isBlank {c : Char} (h : isBlank c = true) :
    isAlphanumeric c = false := by
  have hall : ∀ n ∈ blankPoints, isAlphanumeric (Char.ofNat n) = false := by decide +kernel
  have hc := hall c.toNat (mem_blankPoints h)
  rwa [Char.ofNat_toNat] at hc

theorem not_isBlank_of_isAlphanumeric {c : Char} (h : isAlphanumeric c = true) :
    isBlank c = false := by
  cases hb : isBlank c with
  | false => rfl
  | true => exact absurd h (by simp [isAlphanumeric_of_isBlank hb])

theorem ne_of_isBlank {c d : Char} (h : isBlank c = true) (hd : isBlank d = false) : c ≠ d :=
  ne_of_apply_ne isBlank (by rw [h, hd]; decide)

/-- A text of blanks only. -/
def IsBlank (cs : List Char) : Prop :=
  ∀ c ∈ cs, isBlank c = true

instance : DecidablePred IsBlank := fun cs =>
  decidable_of_iff (cs.all isBlank = true) List.all_eq_true

theorem isBlank_nil : IsBlank [] := by
  simp [IsBlank]

theorem isBlank_cons {c : Char} {cs : List Char} :
    IsBlank (c :: cs) ↔ isBlank c = true ∧ IsBlank cs := by
  simp [IsBlank]

variable {c : Char} {cs ds : List Char}

theorem isBlank_append : IsBlank (cs ++ ds) ↔ IsBlank cs ∧ IsBlank ds := by
  simp [IsBlank, or_imp, forall_and]

theorem trimStart_of_isBlank (h : IsBlank cs) : trimStart (cs ++ ds) = trimStart ds :=
  List.dropWhile_append_of_pos h

theorem trimStart_cons (h : isBlank c = false) (cs : List Char) :
    trimStart (c :: cs) = c :: cs :=
  List.dropWhile_cons_of_neg (by simp [h])

/-- The end of a text is cut off first from its last piece. -/
theorem trimEnd_append (cs ds : List Char) :
    trimEnd (cs ++ ds) = if trimEnd ds = [] then trimEnd cs else cs ++ trimEnd ds := by
  unfold trimEnd dropEndWhile
  rw [List.reverse_append, List.dropWhile_append]
  by_cases h : ds.reverse.dropWhile isBlank = []
  · simp [h]
  · simp [h, List.isEmpty_iff]

theorem trimEnd_eq_nil_iff : trimEnd cs = [] ↔ IsBlank cs := by
  simp [trimEnd, dropEndWhile, List.dropWhile_eq_nil_iff, IsBlank]

theorem trimEnd_append_isBlank (h : IsBlank ds) (cs : List Char) :
    trimEnd (cs ++ ds) = trimEnd cs := by
  rw [trimEnd_append, if_pos (trimEnd_eq_nil_iff.2 h)]

theorem trimEnd_singleton (h : isBlank c = false) : trimEnd [c] = [c] := by
  simp [trimEnd, dropEndWhile, h]

theorem trimEnd_cons (h : isBlank c = false) (cs : List Char) :
    trimEnd (c :: cs) = c :: trimEnd cs := by
  rw [← List.singleton_append, trimEnd_append]
  split
  · rename_i hcs
    rw [trimEnd_singleton h, hcs]
  · rfl

/-- A piece that ends as it is, is kept whole. -/
theorem trimEnd_append_of_ne_nil (h : trimEnd cs = cs) (ds : List Char) :
    trimEnd (cs ++ ds) = cs ++ trimEnd ds := by
  rw [trimEnd_append]
  split
  · rename_i hds
    rw [h, hds, List.append_nil]
  · rfl

theorem trimEnd_concat (h : isBlank c = false) (cs : List Char) :
    trimEnd (cs ++ [c]) = cs ++ [c] := by
  rw [trimEnd_append, trimEnd_singleton h, if_neg (List.cons_ne_nil c [])]

theorem trim_cons (h : isBlank c = false) (cs : List Char) : trim (c :: cs) = c :: trimEnd cs := by
  unfold trim
  rw [trimStart_cons h, trimEnd_cons h]

theorem trimEnd_eq_self (h : ∀ c ∈ cs, isBlank c = false) : trimEnd cs = cs := by
  induction cs with
  | nil => rfl
  | cons c cs ih =>
    rw [trimEnd_cons (h c List.mem_cons_self), ih fun d hd => h d (List.mem_cons_of_mem c hd)]

theorem trim_eq_self (h : ∀ c ∈ cs, isBlank c = false) : trim cs = cs := by
  cases cs with
  | nil => rfl
  | cons c cs =>
    rw [trim_cons (h c List.mem_cons_self),
      trimEnd_eq_self fun d hd => h d (List.mem_cons_of_mem c hd)]

theorem trimStart_eq_nil (h : IsBlank cs) : trimStart cs = [] :=
  List.dropWhile_eq_nil_iff.2 h

theorem trim_eq_nil_iff : trim cs = [] ↔ IsBlank cs := by
  constructor
  · intro h
    have hrest := trimEnd_eq_nil_iff.1 h
    rw [← List.takeWhile_append_dropWhile (p := isBlank) (l := cs)]
    exact isBlank_append.2 ⟨fun c hc => List.mem_takeWhile_imp hc, hrest⟩
  · intro h
    rw [trim, trimStart_eq_nil h]
    rfl

/-- What is cut off at the end is blank. -/
theorem exists_trimEnd (cs : List Char) : ∃ ws, IsBlank ws ∧ cs = trimEnd cs ++ ws := by
  refine ⟨(cs.reverse.takeWhile isBlank).reverse,
    fun c hc => List.mem_takeWhile_imp (List.mem_reverse.1 hc), ?_⟩
  unfold trimEnd dropEndWhile
  rw [← List.reverse_append, List.takeWhile_append_dropWhile, List.reverse_reverse]

/-- What is cut off at the ends is blank. -/
theorem exists_trim (cs : List Char) :
    ∃ bs ws, IsBlank bs ∧ IsBlank ws ∧ cs = bs ++ trim cs ++ ws := by
  obtain ⟨ws, hws, hstart⟩ := exists_trimEnd (trimStart cs)
  refine ⟨cs.takeWhile isBlank, ws, fun c hc => List.mem_takeWhile_imp hc, hws, ?_⟩
  rw [trim, List.append_assoc, ← hstart]
  exact List.takeWhile_append_dropWhile.symm

theorem trim_append_left (h : IsBlank cs) (ds : List Char) : trim (cs ++ ds) = trim ds := by
  unfold trim
  rw [trimStart_of_isBlank h]

end Playhead.Text
