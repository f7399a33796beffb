import Playhead.Expr.Token
import Playhead.Proofs.Except
import Playhead.Proofs.Text.Blank

/-!
What the scanner of expressions does, as relations: which characters make a string literal, which
make the token at the front of a text, and into which tokens a text is cut.
-/

namespace Playhead.Token

open Text

variable {c : Char} {cs ds rest l held : List Char} {t : Token} {ts : List Token}

/-! ### String literals -/

/-- The characters of a string literal after its opening quote, and the text it holds. -/
inductive Literal : List Char → List Char → Prop where
  | close : Literal ['"'] []
  | escape {l held : List Char} (c : Char) (h : Literal l held) :
      Literal ('\\' :: c :: l) ((if c = 'n' then '\n' else c) :: held)
  | char {c : Char} {l held : List Char} (hquote : c ≠ '"') (hback : c ≠ '\\')
      (h : Literal l held) : Literal (c :: l) (c :: held)

theorem Literal.textBody (h : Literal l held) (rest : List Char) :
    textBody (l ++ rest) = .ok (held, rest) := by
  induction h with
  | close => rfl
  | escape c h ih =>
    rw [List.cons_append, List.cons_append, Token.textBody, ih]
    rfl
  | @char c l held hquote hback h ih =>
    rw [List.cons_append, Token.textBody.eq_5 c (l ++ rest) hquote (fun h => absurd h hback)
      (fun _ _ h => absurd h hback), ih]
    rfl

theorem textBody_eq_ok_iff :
    textBody cs = .ok (held, rest) ↔ ∃ l, cs = l ++ rest ∧ Literal l held := by
  constructor
  · intro h
    fun_induction textBody cs generalizing held with
    | case1 => cases h
    | case2 rest' =>
      cases h
      exact ⟨['"'], rfl, .close⟩
    | case3 => cases h
    | case4 c rest' ih =>
      obtain ⟨⟨held', rest''⟩, hbody, heq⟩ := exists_of_map_ok h
      cases heq
      obtain ⟨l, rfl, hl⟩ := ih hbody
      exact ⟨_, rfl, .escape c hl⟩
    | case5 c rest' hquote hlast hback ih =>
      obtain ⟨⟨held', rest''⟩, hbody, heq⟩ := exists_of_map_ok h
      cases heq
      obtain ⟨l, rfl, hl⟩ := ih hbody
      have hback' : c ≠ '\\' := by
        rintro rfl
        cases l with
        | nil => cases hl
        | cons d l => exact hback d _ rfl rfl
      exact ⟨_, rfl, .char hquote hback' hl⟩
  · rintro ⟨l, rfl, hl⟩
    exact hl.textBody rest

theorem Literal.unique {l' held' ds : List Char} (h : Literal l held) (h' : Literal l' held')
    (heq : l ++ cs = l' ++ ds) : l = l' ∧ held = held' ∧ cs = ds := by
  have hbody := h.textBody cs
  rw [heq, h'.textBody ds] at hbody
  cases hbody
  exact ⟨List.append_cancel_right heq, rfl, rfl⟩

theorem Literal.trimEnd_eq (h : Literal l held) : trimEnd ('"' :: l) = '"' :: l := by
  have hlast : ∃ init, l = init ++ ['"'] := by
    induction h with
    | close => exact ⟨[], rfl⟩
    | escape c h ih =>
      obtain ⟨init, rfl⟩ := ih
      exact ⟨'\\' :: c :: init, rfl⟩
    | @char c l held hquote hback h ih =>
      obtain ⟨init, rfl⟩ := ih
      exact ⟨c :: init, rfl⟩
  obtain ⟨init, rfl⟩ := hlast
  exact trimEnd_concat (by decide) ('"' :: init)

/-! ### Characters of names and numbers -/

theorem isDigit_eq (h : c.isDigit = true) : c.toNat ∈ List.range' 48 10 := by
  simp only [Char.isDigit, Bool.and_eq_true, decide_eq_true_eq, UInt32.le_iff_toNat_le] at h
  rw [List.mem_range'_1]
  exact ⟨h.1, Nat.lt_succ_of_le h.2⟩

theorem startsName_of_isDigit (h : c.isDigit = true) : startsName c = false := by
  have hall : ∀ n ∈ List.range' 48 10, startsName (Char.ofNat n) = false := by decide
  have hc := hall c.toNat (isDigit_eq h)
  rwa [Char.ofNat_toNat] at hc

theorem continuesName_of_startsName (h : startsName c = true) : continuesName c = true := by
  simp only [startsName, continuesName, Bool.or_eq_true] at h ⊢
  exact h.imp_left isAlphanumeric_of_isAlphabetic

theorem startsNumber_of_startsName (h : startsName c = true) (cs : List Char) :
    startsNumber c cs = false := by
  have hdigit : c.isDigit = false := by
    cases hd : c.isDigit with
    | false => rfl
    | true => exact absurd h (by simp [startsName_of_isDigit hd])
  have hpoint : c ≠ '.' := by
    rintro rfl
    exact absurd h (by decide)
  simp [startsNumber, hdigit, hpoint]

/-- Characters of which a text outside its literals consists, blanks aside: what neither opens a
literal nor keeps the next character from doing so. -/
def isPlain (c : Char) : Bool :=
  !isBlank c && c != '"' && c != '\\'

theorem isPlain_iff : isPlain c = true ↔ isBlank c = false ∧ c ≠ '"' ∧ c ≠ '\\' := by
  simp [isPlain, and_assoc]

theorem isPlain_of_continuesName (h : continuesName c = true) : isPlain c = true := by
  rw [isPlain_iff]
  refine ⟨?_, ?_, ?_⟩
  · simp only [continuesName, Bool.or_eq_true, decide_eq_true_eq] at h
    rcases h with h | rfl
    · exact not_isBlank_of_isAlphanumeric h
    · decide
  · rintro rfl
    exact absurd h (by decide)
  · rintro rfl
    exact absurd h (by decide)

theorem isPlain_of_continuesNumber (h : continuesNumber c = true) : isPlain c = true := by
  simp only [continuesNumber, Bool.or_eq_true, decide_eq_true_eq] at h
  rcases h with h | rfl
  · have hall : ∀ n ∈ List.range' 48 10, isPlain (Char.ofNat n) = true := by decide
    have hc := hall c.toNat (isDigit_eq h)
    rwa [Char.ofNat_toNat] at hc
  · decide

theorem continuesNumber_of_startsNumber (h : startsNumber c cs = true) :
    continuesNumber c = true := by
  simp only [startsNumber, continuesNumber, Bool.or_eq_true, Bool.and_eq_true] at h ⊢
  exact h.imp_right And.left

/-- The first character of a sign starts no other token. -/
theorem exists_sign_head (s : Sign) : ∃ c, s.chars = c :: s.chars.tail ∧ isPlain c = true ∧
    (c.isDigit || c == '.' || startsName c || c == '(' || c == ')' || c == ',') = false := by
  cases s <;> exact ⟨_, rfl, by decide, by decide⟩

/-! ### The token at the front -/

/-- A text starts with a token, which the rest of it follows. -/
inductive Takes : List Char → Token → List Char → Prop where
  | number {c : Char} {cs : List Char} {x : Float} (hc : startsNumber c cs = true)
      (hx : Decimal.float? (c :: cs.takeWhile continuesNumber) = some x) :
      Takes (c :: cs) (.number x) (cs.dropWhile continuesNumber)
  | name {c : Char} {cs : List Char} (hc : startsName c = true) :
      Takes (c :: cs) (.name (String.ofList (c :: cs.takeWhile continuesName)))
        (cs.dropWhile continuesName)
  | text {l held : List Char} (hl : Literal l held) (cs : List Char) :
      Takes ('"' :: (l ++ cs)) (.text (String.ofList held)) cs
  | opening (cs : List Char) : Takes ('(' :: cs) .opening cs
  | closing (cs : List Char) : Takes (')' :: cs) .closing cs
  | comma (cs : List Char) : Takes (',' :: cs) .comma cs
  /-- The longest sign is taken. -/
  | sign {s : Sign} {cs : List Char} (hs : sign? (s.chars ++ cs) = some s) :
      Takes (s.chars ++ cs) (.sign s) cs

theorem append_drop_of_sign? {s : Sign} (h : sign? (c :: cs) = some s) :
    s.chars ++ cs.drop (s.chars.length - 1) = c :: cs := by
  have hpre := List.find?_some h
  obtain ⟨rest, hrest⟩ := List.isPrefixOf_iff_prefix.1 hpre
  cases s <;> cases hrest <;> rfl

theorem takes_of_next? {r : { rest : List Char // rest.length ≤ cs.length }}
    (h : next? c cs = .ok (t, r)) : Takes (c :: cs) t r.1 := by
  unfold next? at h
  split at h
  · rename_i hnumber
    dsimp only at h
    split at h
    · rename_i x hx
      cases h
      exact .number hnumber hx
    · cases h
  · split at h
    · rename_i hname
      cases h
      exact .name hname
    · split at h
      · rename_i hquote
        subst hquote
        split at h
        · rename_i held rest hbody
          cases h
          obtain ⟨l, rfl, hl⟩ := textBody_eq_ok_iff.1 hbody
          exact .text hl rest
        · cases h
      · split at h
        · rename_i hc
          cases h
          exact hc ▸ .opening cs
        · split at h
          · rename_i hc
            cases h
            exact hc ▸ .closing cs
          · split at h
            · rename_i hc
              cases h
              exact hc ▸ .comma cs
            · split at h
              · rename_i s hs
                cases h
                have happ := append_drop_of_sign? hs
                rw [← happ] at hs ⊢
                exact .sign hs
              · cases h

theorem next?_quote (h : Token.textBody cs = .ok (held, rest)) : next? '"' cs =
    .ok (.text (String.ofList held), ⟨rest, Nat.le_of_lt (textBody_length h)⟩) := by
  unfold next?
  rw [if_neg (by simp [startsNumber]), if_neg (by decide), if_pos rfl]
  split
  · rename_i held' rest' hbody
    cases h.symm.trans hbody
    rfl
  · rename_i e hbody
    cases h.symm.trans hbody

/-- The token is taken by the scanner, and the scan goes on behind it. -/
theorem Takes.scan_eq (h : Takes cs t rest) : scan cs = (scan rest).map (t :: ·) := by
  cases h with
  | @number c cs x hc hx =>
    have hplain := isPlain_of_continuesNumber (continuesNumber_of_startsNumber hc)
    rw [scan, if_neg (by simp [(isPlain_iff.1 hplain).1])]
    simp [next?, hc, hx]
  | @name c cs hc =>
    have hplain := isPlain_of_continuesName (continuesName_of_startsName hc)
    rw [scan, if_neg (by simp [(isPlain_iff.1 hplain).1])]
    simp [next?, hc, startsNumber_of_startsName hc]
  | @text l held hl =>
    rw [scan, if_neg (by decide), next?_quote (hl.textBody rest)]
  | opening | closing | comma =>
    rw [scan]
    rfl
  | @sign s cs hs =>
    obtain ⟨c, hchars, hplain, hopens⟩ := exists_sign_head s
    simp only [Bool.or_eq_false_iff, beq_eq_false_iff_ne] at hopens
    obtain ⟨⟨⟨⟨⟨hdigit, hpoint⟩, hname⟩, hopening⟩, hclosing⟩, hcomma⟩ := hopens
    rw [hchars, List.cons_append] at hs ⊢
    rw [scan, if_neg (by simp [(isPlain_iff.1 hplain).1])]
    have hdrop : (s.chars.tail ++ rest).drop (s.chars.length - 1) = rest :=
      List.drop_left' List.length_tail
    simp [next?, startsNumber, hdigit, hpoint, hname, (isPlain_iff.1 hplain).2.1, hopening,
      hclosing, hcomma, hs, hdrop]

/-- The tokens of a text, which blanks may stand between. -/
inductive Scans : List Char → List Token → Prop where
  | nil : Scans [] []
  | blank {c : Char} {cs : List Char} {ts : List Token} (hc : isBlank c = true)
      (h : Scans cs ts) : Scans (c :: cs) ts
  | token {cs rest : List Char} {t : Token} {ts : List Token} (ht : Takes cs t rest)
      (h : Scans rest ts) : Scans cs (t :: ts)

theorem scan_eq_ok_iff : scan cs = .ok ts ↔ Scans cs ts := by
  constructor
  · intro h
    fun_induction scan cs generalizing ts with
    | case1 =>
      cases h
      exact .nil
    | case2 c cs hc ih => exact .blank hc (ih h)
    | case3 c cs hc e hnext => cases h
    | case4 c cs hc t r hnext ih =>
      obtain ⟨ts', hscan, rfl⟩ := exists_of_map_ok h
      exact .token (takes_of_next? hnext) (ih hscan)
  · intro h
    induction h with
    | nil => rw [scan]
    | blank hc h ih => rw [scan, if_pos hc, ih]
    | token ht h ih =>
      rw [ht.scan_eq, ih]
      rfl

end Playhead.Token
