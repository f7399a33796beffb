import Mathlib.Data.List.Basic
import Mathlib.Data.List.Induction
import Playhead.Proofs.Json.Reading
import Playhead.State.Snapshot

/-!
What the checksum of a snapshot tells apart.

The bytes it is taken over are read from their end: every record ends in a zero byte and has one
between its name and its text. Printed JSON holds no zero character, so records without one in
their names are found again. The name of the script has no such mark behind it.
-/

namespace Playhead

/-- A text without a zero character. -/
def Zeroless (s : String) : Prop :=
  '\x00' ∉ s.toList

instance : DecidablePred Zeroless := fun s =>
  inferInstanceAs (Decidable ('\x00' ∉ s.toList))

@[simp] theorem zeroless_append {s t : String} : Zeroless (s ++ t) ↔ Zeroless s ∧ Zeroless t := by
  unfold Zeroless
  rw [String.toList_append, List.mem_append, not_or]

@[simp] theorem zeroless_ofList {cs : List Char} : Zeroless (String.ofList cs) ↔ '\x00' ∉ cs := by
  unfold Zeroless
  rw [String.toList_ofList]

theorem zeroless_intercalate {sep : String} {l : List String} (hsep : Zeroless sep)
    (hl : ∀ s ∈ l, Zeroless s) : Zeroless (sep.intercalate l) := by
  induction l with
  | nil =>
    rw [String.intercalate_nil]
    decide
  | cons s l ih =>
    have hs := hl s List.mem_cons_self
    cases l with
    | nil => rwa [String.intercalate_singleton]
    | cons t l =>
      have hrest := ih fun u hu => hl u (List.mem_cons_of_mem s hu)
      rw [← List.singleton_append, String.intercalate_append_of_ne_nil (List.cons_ne_nil s [])
        (List.cons_ne_nil t l), String.intercalate_singleton]
      simp [hs, hsep, hrest]

namespace Decimal

theorem zero_not_mem_toDigits {n : Nat} : '\x00' ∉ Nat.toDigits 10 n := by
  intro h
  exact absurd (Nat.isDigit_of_mem_toDigits (by decide) (by decide) h) (by decide)

theorem zeroless_digitsText (n : Nat) : Zeroless (digitsText n) :=
  zeroless_ofList.2 zero_not_mem_toDigits

theorem digitsText_ne_empty (n : Nat) : digitsText n ≠ "" := fun h =>
  Nat.toDigits_ne_nil (String.ofList_eq_empty_iff.1 h)

theorem zeroless_zeros (n : Nat) : Zeroless (zeros n) := by
  refine zeroless_ofList.2 fun h => ?_
  exact absurd (List.eq_of_mem_replicate h) (by decide)

namespace Layout

variable {l : Layout}

theorem zeroless_positionalText (d : Numeral) : Zeroless (l.positionalText d) := by
  have hdigits : ∀ cs, cs ⊆ Nat.toDigits 10 d.digits → Zeroless (String.ofList cs) :=
    fun cs hcs => zeroless_ofList.2 fun h => zero_not_mem_toDigits (hcs h)
  unfold positionalText
  dsimp only
  split
  · rw [zeroless_append, zeroless_append]
    refine ⟨⟨hdigits _ (List.Subset.refl _), zeroless_zeros _⟩, ?_⟩
    split <;> decide
  · split
    · rw [zeroless_append, zeroless_append]
      exact ⟨⟨hdigits _ (List.take_subset _ _), by decide⟩, hdigits _ (List.drop_subset _ _)⟩
    · rw [zeroless_append, zeroless_append]
      exact ⟨⟨by decide, zeroless_zeros _⟩, hdigits _ (List.Subset.refl _)⟩

theorem zeroless_exponentText (hmark : Zeroless l.exponentMark) (d : Numeral) :
    Zeroless (l.exponentText d) := by
  have hdigits : '\x00' ∉ Nat.toDigits 10 d.digits := zero_not_mem_toDigits
  unfold exponentText
  dsimp only
  generalize Nat.toDigits 10 d.digits = digits at hdigits ⊢
  rw [zeroless_append, zeroless_append]
  refine ⟨⟨?_, ?_⟩, zeroless_digitsText _⟩
  · split
    · rw [zeroless_ofList]
      simpa using hdigits
    · exact zeroless_ofList.2 hdigits
  · split
    · decide
    · exact hmark

theorem zeroless_finiteText (hmark : Zeroless l.exponentMark) (f : BinaryFormat) (negative : Bool)
    (b : Binary) : Zeroless (l.finiteText f negative b) := by
  unfold finiteText text
  rw [zeroless_append]
  refine ⟨by cases negative <;> decide, ?_⟩
  dsimp only
  split
  · exact zeroless_positionalText _
  · exact zeroless_exponentText hmark _

theorem text_ne_empty (d : Numeral) : l.text d ≠ "" := by
  unfold text
  dsimp only
  split
  · unfold positionalText
    dsimp only
    split
    · rw [ne_eq, String.append_eq_empty_iff, String.append_eq_empty_iff]
      exact fun h => digitsText_ne_empty _ h.1.1
    · split
      · rw [ne_eq, String.append_eq_empty_iff, String.append_eq_empty_iff]
        exact fun h => absurd h.1.2 (by decide)
      · rw [ne_eq, String.append_eq_empty_iff]
        exact fun h => digitsText_ne_empty _ h.2
  · unfold exponentText
    dsimp only
    rw [ne_eq, String.append_eq_empty_iff]
    exact fun h => digitsText_ne_empty _ h.2

theorem finiteText_ne_empty (f : BinaryFormat) (negative : Bool) (b : Binary) :
    l.finiteText f negative b ≠ "" := by
  unfold finiteText
  rw [ne_eq, String.append_eq_empty_iff]
  exact fun h => text_ne_empty _ h.2

end Layout

end Decimal

namespace Json

open Decimal

theorem zeroless_numberText (x : Float) : Zeroless (numberText x) := by
  unfold numberText
  split
  · exact Layout.zeroless_finiteText (by decide) _ _ _
  · decide

theorem zeroless_intText (n : Int) : Zeroless (intText n) := by
  unfold intText
  rw [zeroless_append]
  refine ⟨?_, zeroless_digitsText _⟩
  split <;> decide

theorem zeroless_escapeChar (c : Char) : Zeroless (escapeChar c) := by
  have hchar := Char.ofNat_toNat c
  unfold escapeChar
  split_ifs with hquote hback hline hreturn htab hbackspace hfeed hcontrol
  · decide
  · decide
  · decide
  · decide
  · decide
  · decide
  · decide
  · generalize c.toNat = n at hcontrol
    interval_cases n <;> decide
  · intro h
    rw [String.toList_singleton, List.mem_singleton] at h
    rw [← h] at hcontrol
    exact hcontrol (by decide)

theorem zeroless_quoted (s : String) : Zeroless (quoted s) := by
  unfold Zeroless
  rw [toList_quoted, List.mem_append, List.mem_cons, List.mem_flatMap]
  rintro ((h | ⟨c, -, h⟩) | h)
  · exact absurd h (by decide)
  · exact zeroless_escapeChar c h
  · exact absurd h (by decide)

mutual

theorem zeroless_compact (j : Json) : Zeroless (compact j) := by
  cases j with
  | null => decide
  | bool b => cases b <;> decide
  | int n => exact zeroless_intText n
  | number x => exact zeroless_numberText x
  | text s => exact zeroless_quoted s
  | list items =>
    rw [compact, zeroless_append, zeroless_append]
    exact ⟨⟨by decide, zeroless_intercalate (by decide) (zeroless_compactItems items)⟩,
      by decide⟩
  | record fields =>
    rw [compact, zeroless_append, zeroless_append]
    exact ⟨⟨by decide, zeroless_intercalate (by decide) (zeroless_compactFields fields)⟩,
      by decide⟩

theorem zeroless_compactItems (items : List Json) : ∀ s ∈ compactItems items, Zeroless s := by
  cases items with
  | nil => exact fun s hs => absurd hs List.not_mem_nil
  | cons j rest =>
    rw [compactItems]
    intro s hs
    rcases List.mem_cons.1 hs with rfl | hs
    · exact zeroless_compact j
    · exact zeroless_compactItems rest s hs

theorem zeroless_compactFields (fields : List (String × Json)) :
    ∀ s ∈ compactFields fields, Zeroless s := by
  cases fields with
  | nil => exact fun s hs => absurd hs List.not_mem_nil
  | cons e rest =>
    obtain ⟨k, j⟩ := e
    rw [compactFields]
    intro s hs
    rcases List.mem_cons.1 hs with rfl | hs
    · rw [zeroless_append, zeroless_append]
      exact ⟨⟨zeroless_quoted k, by decide⟩, zeroless_compact j⟩
    · exact zeroless_compactFields rest s hs

end

theorem compact_ne_empty (j : Json) : compact j ≠ "" := by
  cases j with
  | null => decide
  | bool b => cases b <;> decide
  | int n =>
    show intText n ≠ ""
    unfold intText
    rw [ne_eq, String.append_eq_empty_iff]
    exact fun h => digitsText_ne_empty _ h.2
  | number x =>
    show numberText x ≠ ""
    unfold numberText
    split
    · exact Layout.finiteText_ne_empty _ _ _
    · decide
  | text s =>
    show quoted s ≠ ""
    unfold quoted
    rw [ne_eq, String.append_eq_empty_iff]
    exact fun h => absurd h.2 (by decide)
  | list items | record fields =>
    rw [compact, ne_eq, String.append_eq_empty_iff]
    exact fun h => absurd h.2 (by decide)

end Json

/-! ### Bytes of texts and words -/

/-- The bytes of a text. -/
def utf8 (s : String) : List UInt8 :=
  s.toUTF8.data.toList

theorem utf8_eq_flatMap (s : String) : utf8 s = s.toList.flatMap String.utf8EncodeChar := by
  unfold utf8 String.toUTF8
  rw [← String.utf8Encode_toList]
  exact congrArg Array.toList List.data_toByteArray

theorem utf8_inj {s t : String} : utf8 s = utf8 t ↔ s = t := by
  refine ⟨fun h => String.toByteArray_inj.1 ?_, congrArg utf8⟩
  exact ByteArray.ext (Array.toList_inj.1 h)

theorem ofNat_ne_zero {n : Nat} (h : n % 256 ≠ 0) : UInt8.ofNat n ≠ 0 := by
  intro heq
  have hnat := congrArg UInt8.toNat heq
  rw [UInt8.toNat_ofNat'] at hnat
  exact h hnat

theorem eq_zero_of_mem_encode {c : Char} (h : 0 ∈ String.utf8EncodeChar c) : c = '\x00' := by
  refine Char.toNat_inj.1 ?_
  show c.toNat = 0
  have hne : ∀ n, n % 256 ≠ 0 → 0 ≠ UInt8.ofNat n := fun n hn => (ofNat_ne_zero hn).symm
  unfold String.utf8EncodeChar at h
  dsimp only at h
  split at h
  · rename_i hsmall
    by_contra hc
    exact hne c.val.toNat (by change c.toNat % 256 ≠ 0; change c.toNat ≤ 127 at hsmall; omega)
      (List.mem_singleton.1 h)
  -- every further byte has its highest bit set
  · exfalso
    revert h
    split
    · simp only [List.mem_cons, List.not_mem_nil, or_false]
      rintro (h | h) <;> exact hne _ (by omega) h
    · split
      · simp only [List.mem_cons, List.not_mem_nil, or_false]
        rintro (h | h | h) <;> exact hne _ (by omega) h
      · simp only [List.mem_cons, List.not_mem_nil, or_false]
        rintro (h | h | h | h) <;> exact hne _ (by omega) h

theorem zero_not_mem_utf8 {s : String} (h : Zeroless s) : 0 ∉ utf8 s := by
  rw [utf8_eq_flatMap, List.mem_flatMap]
  rintro ⟨c, hc, hzero⟩
  exact h (eq_zero_of_mem_encode hzero ▸ hc)

theorem utf8_eq_nil {s : String} (h : utf8 s = []) : s = "" :=
  utf8_inj.1 h

namespace Snapshot

/-- The bytes of a word. -/
def word (n : Nat) : List UInt8 :=
  (List.range 8).map fun i => UInt8.ofNat (n >>> (8 * i))

theorem length_word (n : Nat) : (word n).length = 8 := by
  rw [word, List.length_map, List.length_range]

theorem mod_eq_of_bytes {m n : Nat} (k : Nat)
    (h : ∀ i < k, m / 256 ^ i % 256 = n / 256 ^ i % 256) : m % 256 ^ k = n % 256 ^ k := by
  induction k with
  | zero => rw [pow_zero, Nat.mod_one, Nat.mod_one]
  | succ k ih =>
    rw [Nat.mod_pow_succ, Nat.mod_pow_succ, ih fun i hi => h i (Nat.lt_succ_of_lt hi),
      h k (Nat.lt_succ_self k)]

theorem word_inj {m n : Nat} (hm : m < 2 ^ 64) (hn : n < 2 ^ 64) (h : word m = word n) :
    m = n := by
  have hmod := mod_eq_of_bytes (m := m) (n := n) 8 fun i hi => by
    have hbyte := congrArg UInt8.toNat (List.map_inj_left.1 h i (List.mem_range.2 hi))
    rwa [UInt8.toNat_ofNat', UInt8.toNat_ofNat', Nat.shiftRight_eq_div_pow,
      Nat.shiftRight_eq_div_pow, pow_mul] at hbyte
  rwa [show 256 ^ 8 = 2 ^ 64 from by decide, Nat.mod_eq_of_lt hm, Nat.mod_eq_of_lt hn] at hmod

/-! ### Records, read from the end -/

/-- The bytes of a name and of a text. -/
abbrev Entry : Type := List UInt8 × List UInt8

/-- What can be told from its surroundings: no zero byte but the two that are added. -/
structure Entry.Clean (r : Entry) : Prop where
  name : 0 ∉ r.1
  text : 0 ∉ r.2
  nonempty : r.2 ≠ []

def enclose (l : List Entry) : List UInt8 :=
  l.flatMap fun r => r.1 ++ 0 :: (r.2 ++ [0])

/-- Nothing, or bytes that end in a zero byte. -/
def Closed (a : List UInt8) : Prop :=
  a = [] ∨ ∃ b, a = b ++ [0]

theorem enclose_concat (l : List Entry) (r : Entry) :
    enclose (l ++ [r]) = enclose l ++ (r.1 ++ 0 :: (r.2 ++ [0])) := by
  simp [enclose]

theorem closed_append_enclose {d : List UInt8} (hd : Closed d) (l : List Entry) :
    Closed (d ++ enclose l) := by
  induction l using List.reverseRecOn with
  | nil => rwa [enclose, List.flatMap_nil, List.append_nil]
  | append_singleton l r ih =>
    refine .inr ⟨d ++ enclose l ++ (r.1 ++ 0 :: r.2), ?_⟩
    simp [enclose_concat]

/-- What stands behind the last zero byte is found again. -/
theorem split_last {a b x y : List UInt8} (hx : 0 ∉ x) (hy : 0 ∉ y)
    (h : a ++ 0 :: x = b ++ 0 :: y) : a = b ∧ x = y := by
  rcases List.append_eq_append_iff.1 h with ⟨c, hc, heq⟩ | ⟨c, hc, heq⟩
  · cases c with
    | nil => exact ⟨by simpa using hc.symm, by simpa using heq⟩
    | cons z c =>
      obtain ⟨-, hxc⟩ := List.cons.inj heq
      exact absurd (hxc ▸ List.mem_append_right c List.mem_cons_self) hx
  · cases c with
    | nil => exact ⟨by simpa using hc, by simpa using heq.symm⟩
    | cons z c =>
      obtain ⟨-, hyc⟩ := List.cons.inj heq
      exact absurd (hyc ▸ List.mem_append_right c List.mem_cons_self) hy

theorem split_closed {a b x y : List UInt8} (ha : Closed a) (hb : Closed b) (hx : 0 ∉ x)
    (hy : 0 ∉ y) (h : a ++ x = b ++ y) : a = b ∧ x = y := by
  rcases ha with rfl | ⟨a, rfl⟩ <;> rcases hb with rfl | ⟨b, rfl⟩
  · exact ⟨rfl, h⟩
  · rw [List.nil_append] at h
    exact absurd (h ▸ by simp) hx
  · rw [List.nil_append] at h
    exact absurd (h ▸ by simp) hy
  · rw [List.append_assoc, List.append_assoc] at h
    obtain ⟨rfl, rfl⟩ := split_last hx hy h
    exact ⟨rfl, rfl⟩

theorem split_entry {a b : List UInt8} {r q : Entry} (ha : Closed a) (hb : Closed b)
    (hr : r.Clean) (hq : q.Clean)
    (h : a ++ (r.1 ++ 0 :: (r.2 ++ [0])) = b ++ (q.1 ++ 0 :: (q.2 ++ [0]))) : a = b ∧ r = q := by
  have hends : ((a ++ r.1) ++ 0 :: r.2) ++ [0] = ((b ++ q.1) ++ 0 :: q.2) ++ [0] := by
    simpa using h
  obtain ⟨hnames, htexts⟩ := split_last hr.text hq.text (List.append_cancel_right hends)
  obtain ⟨hab, hname⟩ := split_closed ha hb hr.name hq.name hnames
  exact ⟨hab, Prod.ext hname htexts⟩

/-- Bytes of records that end in those of other ones begin with those of the rest. -/
theorem enclose_suffix {l m : List Entry} {d : List UInt8} (hl : ∀ r ∈ l, Entry.Clean r)
    (hm : ∀ r ∈ m, Entry.Clean r) (hd : Closed d) (h : enclose l = d ++ enclose m) :
    ∃ k, l = k ++ m ∧ enclose k = d := by
  induction m using List.reverseRecOn generalizing l with
  | nil =>
    refine ⟨l, (List.append_nil l).symm, ?_⟩
    rwa [show enclose [] = [] from rfl, List.append_nil] at h
  | append_singleton m q ih =>
    rw [enclose_concat, ← List.append_assoc] at h
    rcases List.eq_nil_or_concat' l with rfl | ⟨l, r, rfl⟩
    · simp [enclose] at h
    · rw [enclose_concat] at h
      obtain ⟨hcut, rfl⟩ := split_entry (closed_append_enclose (.inl rfl) l)
        (closed_append_enclose hd m) (hl r (by simp)) (hm q (by simp)) h
      obtain ⟨k, rfl, hk⟩ := ih (fun r hr => hl r (by simp [hr])) (fun r hr => hm r (by simp [hr]))
        hcut
      exact ⟨k, List.append_assoc .., hk⟩

theorem enclose_inj {l m : List Entry} (hl : ∀ r ∈ l, Entry.Clean r)
    (hm : ∀ r ∈ m, Entry.Clean r) (h : enclose l = enclose m) : l = m := by
  obtain ⟨k, rfl, hk⟩ := enclose_suffix hl hm (.inl rfl) h
  cases k with
  | nil => rfl
  | cons r k => simp [enclose] at hk

/-! ### Position and records -/

/-- Words between a name and the records, the first one of seven bytes and the last one of six. -/
structure Small (head : List UInt8) : Prop where
  length : head.length = 24
  front : ∃ a b, head = a ++ 0 :: b ∧ a.length = 7
  back : ∃ a, head = a ++ [0, 0]

/-- No records end like a last word: their last text is not empty. -/
theorem not_enclose {c d : List UInt8} (hback : ∃ a, c ++ d = a ++ [0, 0]) (hd : d ≠ [])
    {k : List Entry} (hk : ∀ r ∈ k, Entry.Clean r) : enclose k ≠ d := by
  rintro rfl
  rcases List.eq_nil_or_concat' k with rfl | ⟨k, r, rfl⟩
  · exact hd rfl
  · have hr := hk r (by simp)
    obtain ⟨a, ha⟩ := hback
    rcases List.eq_nil_or_concat' r.2 with hnil | ⟨t, z, ht⟩
    · exact hr.nonempty hnil
    · have hends : (c ++ enclose k ++ r.1 ++ 0 :: t) ++ [z, 0] = a ++ [0, 0] := by
        rw [← ha, enclose_concat, ht]
        simp
      have hz := (List.append_inj' hends rfl).2
      exact hr.text (by rw [ht, (List.cons.inj hz).1]; simp)

/-- The bytes behind a name cannot begin inside another name: a zero byte of the first word would
belong to that name, or the end of the last word to a record. -/
theorem not_shifted {x head head' : List UInt8} {l m : List Entry} (hhead : Small head)
    (hhead' : Small head') (hx : 0 ∉ x) (hne : x ≠ []) (hl : ∀ r ∈ l, Entry.Clean r)
    (hm : ∀ r ∈ m, Entry.Clean r) : head ++ enclose l ≠ x ++ (head' ++ enclose m) := by
  intro h
  have hpos := List.length_pos_iff.2 hne
  have hshort : x.length ≤ 7 := by
    obtain ⟨a, b, hab, hlength⟩ := hhead.front
    rw [hab, List.append_assoc] at h
    rcases List.append_eq_append_iff.1 h with ⟨c, rfl, hc⟩ | ⟨c, rfl, -⟩
    · cases c with
      | nil => simp [hlength]
      | cons z c =>
        obtain ⟨rfl, -⟩ := List.cons.inj hc
        exact absurd (List.mem_append_right a List.mem_cons_self) hx
    · rw [List.length_append] at hlength
      exact hlength ▸ Nat.le_add_right ..
  obtain ⟨d, hd, henclose⟩ : ∃ d, x ++ head' = head ++ d ∧ enclose l = d ++ enclose m := by
    rw [← List.append_assoc] at h
    rcases List.append_eq_append_iff.1 h with ⟨d, hd, heq⟩ | ⟨c, hc, -⟩
    · exact ⟨d, hd, heq⟩
    · have hlength := congrArg List.length hc
      rw [List.length_append, List.length_append, hhead.length, hhead'.length] at hlength
      omega
  have hlength := congrArg List.length hd
  rw [List.length_append, List.length_append, hhead.length, hhead'.length] at hlength
  have hdne : d ≠ [] := List.length_pos_iff.1 (by omega)
  obtain ⟨c, -, hc⟩ : ∃ c, head = x ++ c ∧ head' = c ++ d := by
    rcases List.append_eq_append_iff.1 hd with ⟨c, hc, heq⟩ | ⟨c, hc, heq⟩
    · exact ⟨c, hc, heq⟩
    · have hxlength := congrArg List.length hc
      rw [List.length_append, hhead.length] at hxlength
      omega
  have hback : ∃ a, c ++ d = a ++ [0, 0] := hc ▸ hhead'.back
  have hclosed : Closed d := by
    obtain ⟨a, ha⟩ := hback
    rcases List.eq_nil_or_concat' d with hnil | ⟨e, z, rfl⟩
    · exact .inl hnil
    · have hends : (c ++ e) ++ [z] = (a ++ [0]) ++ [0] := by
        rw [List.append_assoc, ha, List.append_assoc]
        rfl
      have hz := (List.append_inj' hends rfl).2
      exact .inr ⟨e, by rw [hz]⟩
  obtain ⟨k, rfl, hk⟩ := enclose_suffix hl hm hclosed henclose
  exact not_enclose hback hdne (fun r hr => hl r (List.mem_append_left m hr)) hk

/-- Bytes of a position and of records, whose names hold no zero byte, tell where the name ends. -/
theorem length_name_le {n n' head head' : List UInt8} {l m : List Entry} (hn' : 0 ∉ n')
    (hhead : Small head) (hhead' : Small head') (hl : ∀ r ∈ l, Entry.Clean r)
    (hm : ∀ r ∈ m, Entry.Clean r)
    (h : n ++ (head ++ enclose l) = n' ++ (head' ++ enclose m)) : n'.length ≤ n.length := by
  rcases List.append_eq_append_iff.1 h with ⟨x, rfl, heq⟩ | ⟨x, rfl, -⟩
  · by_cases hne : x = []
    · rw [hne, List.append_nil]
    · have hx : 0 ∉ x := fun hzero => hn' (List.mem_append_right n hzero)
      exact absurd heq (not_shifted hhead hhead' hx hne hl hm)
  · rw [List.length_append]
    exact Nat.le_add_right ..

/-- The records of a map as they enter the checksum. -/
def printed (records : StateMap) : List Entry :=
  records.entries.map fun e => (utf8 e.1, utf8 e.2.compact)

/-- The words of a position. -/
def head (spot : Spot) (revision : UInt64) (played : Nat) : List UInt8 :=
  word spot.index ++ (word revision.toNat ++ word played)

theorem data_recordBytes (records : StateMap) :
    (recordBytes records).data.toList = enclose (printed records) := by
  have hfold : ∀ (l : List (String × Json)) (bytes : ByteArray),
      (l.foldl (fun bytes e => bytes ++ e.1.toUTF8 ++ zeroByte ++ e.2.compact.toUTF8 ++ zeroByte)
        bytes).data.toList =
      bytes.data.toList ++ enclose (l.map fun e => (utf8 e.1, utf8 e.2.compact)) := by
    intro l
    induction l with
    | nil => simp [enclose]
    | cons e l ih =>
      intro bytes
      rw [List.foldl_cons, ih]
      simp [enclose, utf8, zeroByte]
  exact hfold records.entries ByteArray.empty

theorem data_checksumBytes (spot : Spot) (revision : UInt64) (played : Nat) (records : StateMap) :
    (checksumBytes spot revision played records).data.toList =
      utf8 spot.script ++ (head spot revision played ++ enclose (printed records)) := by
  unfold checksumBytes head
  simp only [ByteArray.data_append, Array.toList_append, data_recordBytes, List.append_assoc]
  rfl

/-- What a checksum is taken over. -/
def bytes (s : Snapshot) : ByteArray :=
  checksumBytes s.spot s.revision s.played s.records

/-- Equal in all that a checksum is taken over. -/
structure SameContent (s t : Snapshot) : Prop where
  spot : s.spot = t.spot
  revision : s.revision = t.revision
  played : s.played = t.played
  records : s.records = t.records

theorem SameContent.bytes_eq {s t : Snapshot} (h : s.SameContent t) : s.bytes = t.bytes := by
  unfold bytes
  rw [h.spot, h.revision, h.played, h.records]

/-- Numbers of 64 bits, and no zero characters in the names of records. -/
structure Delimited (s : Snapshot) : Prop where
  index : s.spot.index < 2 ^ 64
  played : s.played < 2 ^ 64
  names : ∀ e ∈ s.records.entries, Zeroless e.1

/-- No zero character in the name of the script, and numbers that do not fill their words. -/
structure Modest (s : Snapshot) : Prop where
  script : Zeroless s.spot.script
  index : s.spot.index < 2 ^ 56
  played : s.played < 2 ^ 48

theorem Delimited.clean {s : Snapshot} (hs : s.Delimited) :
    ∀ r ∈ printed s.records, Entry.Clean r := by
  intro r hr
  obtain ⟨e, he, rfl⟩ := List.mem_map.1 hr
  exact ⟨zero_not_mem_utf8 (hs.names e he), zero_not_mem_utf8 (Json.zeroless_compact e.2),
    fun hnil => Json.compact_ne_empty e.2 (utf8_eq_nil hnil)⟩

theorem Modest.small {s : Snapshot} (hs : s.Modest) : Small (head s.spot s.revision s.played) := by
  have hzero : ∀ {n i : Nat}, n < 2 ^ (8 * i) → UInt8.ofNat (n >>> (8 * i)) = 0 := by
    intro n i hn
    rw [Nat.shiftRight_eq_div_pow, Nat.div_eq_of_lt hn]
    rfl
  refine ⟨by simp [head, length_word], ?_, ?_⟩
  · refine ⟨(List.range 7).map fun i => UInt8.ofNat (s.spot.index >>> (8 * i)),
      word s.revision.toNat ++ word s.played, ?_, by simp⟩
    have hindex : UInt8.ofNat (s.spot.index >>> (8 * 7)) = 0 := hzero hs.index
    rw [head, word, List.range_succ, List.map_append, List.map_singleton, hindex,
      List.append_assoc]
    rfl
  · refine ⟨word s.spot.index ++ (word s.revision.toNat ++
      (List.range 6).map fun i => UInt8.ofNat (s.played >>> (8 * i))), ?_⟩
    have hsix : UInt8.ofNat (s.played >>> (8 * 6)) = 0 := hzero hs.played
    have hseven : UInt8.ofNat (s.played >>> (8 * 7)) = 0 :=
      hzero (Nat.lt_trans hs.played (by decide))
    have hword : word s.played =
        (List.range 6).map (fun i => UInt8.ofNat (s.played >>> (8 * i))) ++ [0, 0] := by
      rw [word, List.range_succ, List.range_succ, List.map_append, List.map_append,
        List.map_singleton, List.map_singleton, hsix, hseven, List.append_assoc]
      rfl
    rw [head, hword]
    simp only [List.append_assoc]

theorem length_script_le {s t : Snapshot} (hs : s.Delimited) (ht : t.Delimited) (hms : s.Modest)
    (hmt : t.Modest) (h : s.bytes = t.bytes) :
    t.spot.script.utf8ByteSize ≤ s.spot.script.utf8ByteSize := by
  have hdata := congrArg (fun b => b.data.toList) h
  simp only [bytes, data_checksumBytes] at hdata
  exact length_name_le (zero_not_mem_utf8 hmt.script) hms.small hmt.small hs.clean ht.clean hdata

/-- Records are told apart by their texts as far as printing does. -/
theorem printed_inj {m n : StateMap}
    (hprint : ∀ e ∈ m.entries, ∀ f ∈ n.entries, e.2.compact = f.2.compact → e.2 = f.2)
    (h : printed m = printed n) : m = n := by
  have hlists : ∀ l k : List (String × Json),
      (∀ e ∈ l, ∀ f ∈ k, e.2.compact = f.2.compact → e.2 = f.2) →
      l.map (fun e => (utf8 e.1, utf8 e.2.compact)) =
        k.map (fun e => (utf8 e.1, utf8 e.2.compact)) → l = k := by
    intro l
    induction l with
    | nil =>
      intro k _ heq
      exact (List.map_eq_nil_iff.1 heq.symm).symm
    | cons e l ih =>
      intro k hk heq
      cases k with
      | nil => cases heq
      | cons f k =>
        obtain ⟨hfirst, hrest⟩ := List.cons.inj heq
        obtain ⟨hname, htext⟩ := Prod.mk.inj hfirst
        have hrecord := hk e List.mem_cons_self f List.mem_cons_self (utf8_inj.1 htext)
        rw [Prod.ext (utf8_inj.1 hname) hrecord, ih k (fun a ha b hb =>
          hk a (List.mem_cons_of_mem e ha) b (List.mem_cons_of_mem f hb)) hrest]
  obtain ⟨l, hl⟩ := m
  obtain ⟨k, hk⟩ := n
  obtain rfl := hlists l k hprint h
  rfl

theorem sameContent_of_bytes {s t : Snapshot} (hs : s.Delimited) (ht : t.Delimited)
    (hlength : s.spot.script.utf8ByteSize = t.spot.script.utf8ByteSize)
    (hprint : ∀ e ∈ s.records.entries, ∀ f ∈ t.records.entries,
      e.2.compact = f.2.compact → e.2 = f.2)
    (h : s.bytes = t.bytes) : s.SameContent t := by
  have hdata := congrArg (fun b => b.data.toList) h
  simp only [bytes, data_checksumBytes, head, List.append_assoc] at hdata
  have hwords : ∀ m n, (word m).length = (word n).length := fun m n => by
    rw [length_word, length_word]
  obtain ⟨hscript, hdata⟩ := List.append_inj hdata hlength
  obtain ⟨hindex, hdata⟩ := List.append_inj hdata (hwords _ _)
  obtain ⟨hrevision, hdata⟩ := List.append_inj hdata (hwords _ _)
  obtain ⟨hplayed, hdata⟩ := List.append_inj hdata (hwords _ _)
  have hspot : s.spot = t.spot := by
    have hi := word_inj hs.index ht.index hindex
    have hn := utf8_inj.1 hscript
    cases hss : s.spot
    cases hts : t.spot
    simp_all
  exact ⟨hspot,
    UInt64.toNat_inj.1 (word_inj s.revision.toNat_lt t.revision.toNat_lt hrevision),
    word_inj hs.played ht.played hplayed,
    printed_inj hprint (enclose_inj hs.clean ht.clean hdata)⟩

theorem verify_eq_ok_iff {s : Snapshot} :
    s.verify = .ok () ↔ s.version = currentVersion ∧ XXH3.hash s.bytes = s.checksum := by
  unfold verify
  split
  · rename_i h
    exact iff_of_false nofun fun hok => h hok.1
  · rename_i h
    dsimp only
    split
    · rename_i hne
      exact iff_of_false nofun fun hok => hne hok.2
    · rename_i heq
      exact iff_of_true rfl ⟨not_not.1 h, not_not.1 heq⟩

/-- An altered snapshot is refused unless it has the hash of the snapshot that was captured. -/
theorem verify_of_altered {s t : Snapshot} (hs : s.verify = .ok ())
    (hversion : t.version = s.version) (hchecksum : t.checksum = s.checksum)
    (hhash : XXH3.hash s.bytes ≠ XXH3.hash t.bytes) :
    t.verify = .error (.checksum t.spot t.checksum (XXH3.hash t.bytes)) := by
  obtain ⟨hcurrent, hsum⟩ := verify_eq_ok_iff.1 hs
  have hfound : XXH3.hash t.bytes ≠ t.checksum := by
    rw [hchecksum, ← hsum]
    exact hhash.symm
  unfold verify
  rw [if_neg (not_not.2 (hversion.trans hcurrent))]
  exact if_pos hfound

/-- Snapshots whose records have names without zero characters are told apart by the bytes the
checksum is taken over, if their scripts have names of one length, or names without zero
characters and numbers that do not fill their words. So a snapshot altered after its capture is
refused, unless other bytes have the same hash. -/
theorem checksum_covers {s t : Snapshot} (hs : s.Delimited) (ht : t.Delimited)
    (hscripts : s.spot.script.utf8ByteSize = t.spot.script.utf8ByteSize ∨ s.Modest ∧ t.Modest)
    (hprint : ∀ e ∈ s.records.entries, ∀ f ∈ t.records.entries,
      e.2.compact = f.2.compact → e.2 = f.2) :
    (s.bytes = t.bytes → s.SameContent t) ∧
      (s.verify = .ok () → t.version = s.version → t.checksum = s.checksum → ¬s.SameContent t →
        t.verify = .error (.checksum t.spot t.checksum (XXH3.hash t.bytes)) ∨
          s.bytes ≠ t.bytes ∧ XXH3.hash s.bytes = XXH3.hash t.bytes) := by
  have htold : s.bytes = t.bytes → s.SameContent t := by
    intro h
    refine sameContent_of_bytes hs ht ?_ hprint h
    rcases hscripts with hlength | ⟨hms, hmt⟩
    · exact hlength
    · exact Nat.le_antisymm (length_script_le ht hs hmt hms h.symm)
        (length_script_le hs ht hms hmt h)
  refine ⟨htold, fun hverify hversion hchecksum hdiffer => ?_⟩
  by_cases hhash : XXH3.hash s.bytes = XXH3.hash t.bytes
  · exact .inr ⟨fun h => hdiffer (htold h), hhash⟩
  · exact .inl (verify_of_altered hverify hversion hchecksum hhash)

/-- A snapshot taken early in a script. -/
def counted : Snapshot :=
  make ⟨"intro", 2⟩ 7 3 (.ofList [("counter", .record [("value", .int 1)])])

/-- The same snapshot with another count. -/
def recounted : Snapshot :=
  { counted with records := .ofList [("counter", .record [("value", .int 99)])] }

theorem checksum_covers_count :
    recounted.verify =
      .error (.checksum recounted.spot recounted.checksum (XXH3.hash recounted.bytes)) := by
  have hcounted : counted.Delimited :=
    ⟨by decide, by decide, by decide +kernel⟩
  have hrecounted : recounted.Delimited :=
    ⟨by decide, by decide, by decide +kernel⟩
  have hprint : ∀ e ∈ counted.records.entries, ∀ f ∈ recounted.records.entries,
      e.2.compact = f.2.compact → e.2 = f.2 := by
    intro e he f hf htext
    obtain rfl := List.mem_singleton.1 he
    obtain rfl := List.mem_singleton.1 hf
    exact absurd (congrArg String.length htext) (by decide +kernel)
  have hhash : XXH3.hash counted.bytes ≠ XXH3.hash recounted.bytes := by
    decide +kernel
  have hdiffer : ¬counted.SameContent recounted := fun h =>
    hhash (congrArg XXH3.hash h.bytes_eq)
  rcases (checksum_covers hcounted hrecounted (.inl rfl) hprint).2
    (verify_eq_ok_iff.2 ⟨rfl, rfl⟩) rfl rfl hdiffer with hrefused | ⟨-, hsame⟩
  · exact hrefused
  · exact absurd hsame hhash

/-- Two records. -/
def asTwo : Snapshot :=
  make ⟨"intro", 0⟩ 0 0 (.ofList [("a", .int 1), ("b", .int 2)])

/-- The bytes of the two records, as those of a single one with zeros in its name. -/
def asOne : Snapshot :=
  { asTwo with records := .ofList [("a\x001\x00b", .int 2)] }

/-- A script with a short name. -/
def shortNamed : Snapshot :=
  make ⟨"", 0x41⟩ 0 0 (.ofList [("k", .null)])

/-- The same bytes, the first one as the name of the script. -/
def longNamed : Snapshot :=
  { shortNamed with
    spot := ⟨"A", 0⟩
    played := 0x6b00000000000000
    records := .ofList [("", .null)] }

/-- A record may be named so that it passes for two, and the name of a script may take in bytes of
the words behind it. -/
theorem altered_unseen :
    (asTwo.verify = .ok () ∧ ¬asTwo.SameContent asOne ∧ asTwo.bytes = asOne.bytes ∧
      asOne.verify = .ok ()) ∧
    (shortNamed.verify = .ok () ∧ ¬shortNamed.SameContent longNamed ∧
      shortNamed.bytes = longNamed.bytes ∧ longNamed.verify = .ok ()) := by
  have hrecords : asTwo.bytes = asOne.bytes :=
    ByteArray.ext (Array.toList_inj.1 (by decide +kernel))
  have hscripts : shortNamed.bytes = longNamed.bytes :=
    ByteArray.ext (Array.toList_inj.1 (by decide +kernel))
  refine ⟨⟨verify_eq_ok_iff.2 ⟨rfl, rfl⟩, ?_, hrecords, ?_⟩, verify_eq_ok_iff.2 ⟨rfl, rfl⟩, ?_,
    hscripts, ?_⟩
  · intro h
    have hkeys := congrArg NameMap.keys h.records
    exact absurd hkeys (by decide +kernel)
  · exact verify_eq_ok_iff.2 ⟨rfl, congrArg XXH3.hash hrecords.symm⟩
  · intro h
    exact absurd h.played (by decide)
  · exact verify_eq_ok_iff.2 ⟨rfl, congrArg XXH3.hash hscripts.symm⟩

end Snapshot

end Playhead
