import Mathlib.Data.List.Forall2
import Playhead.Proofs.Expr.Scanning

/-!
How a text may be spelled otherwise without being cut otherwise.

Outside its string literals an expression has neither quotes nor backslashes, so every reader that
watches for quotes finds the same literals in it. Two texts are akin if they have the same
characters outside literals, blanks where the other has blanks, and a literal where the other has
one; main statement: akin texts have akin tokens.
-/

namespace Playhead.Token

open Text

/-- Every literal of a text is closed, and its characters outside literals pass a test. -/
inductive Outside (p : Char → Bool) : List Char → Prop where
  | nil : Outside p []
  | char {c : Char} {cs : List Char} (hc : p c = true) (h : Outside p cs) : Outside p (c :: cs)
  | literal {l held cs : List Char} (hl : Literal l held) (h : Outside p cs) :
      Outside p ('"' :: (l ++ cs))

/-- Texts that are spelled alike, where the texts that literals hold are related by `P`. At the end
blanks may be missing. -/
inductive Akin (P : List Char → List Char → Prop) : List Char → List Char → Prop where
  | done {bs ws : List Char} (hb : IsBlank bs) (hw : IsBlank ws) : Akin P bs ws
  | char {c : Char} {cs ds : List Char} (hc : isPlain c = true) (h : Akin P cs ds) :
      Akin P (c :: cs) (c :: ds)
  | literal {l m a b cs ds : List Char} (hl : Literal l a) (hm : Literal m b) (hp : P a b)
      (h : Akin P cs ds) : Akin P ('"' :: (l ++ cs)) ('"' :: (m ++ ds))
  | blanks {b w : Char} {bs ws cs ds : List Char} (hb : IsBlank (b :: bs)) (hw : IsBlank (w :: ws))
      (h : Akin P cs ds) : Akin P (b :: (bs ++ cs)) (w :: (ws ++ ds))

variable {P : List Char → List Char → Prop} {p q : Char → Bool} {c d : Char}
  {cs ds rest : List Char} {t : Token} {ts : List Token}

/-! ### Texts whose literals are closed -/

theorem Outside.append (h : Outside p cs) (h' : Outside p ds) : Outside p (cs ++ ds) := by
  induction h with
  | nil => exact h'
  | char hc h ih => exact .char hc ih
  | literal hl h ih =>
    rw [List.cons_append, List.append_assoc]
    exact .literal hl ih

theorem Outside.mono (h : Outside p cs) (hpq : ∀ c, p c = true → q c = true) : Outside q cs := by
  induction h with
  | nil => exact .nil
  | char hc h ih => exact .char (hpq _ hc) ih
  | literal hl h ih => exact .literal hl ih

theorem outside_of_forall (h : ∀ c ∈ cs, p c = true) : Outside p cs := by
  induction cs with
  | nil => exact .nil
  | cons c cs ih =>
    exact .char (h c List.mem_cons_self) (ih fun d hd => h d (List.mem_cons_of_mem c hd))

theorem outside_of_all (h : cs.all p = true) : Outside p cs :=
  outside_of_forall (List.all_eq_true.1 h)

/-- Characters outside the literals of an expression. -/
def isInExpression (c : Char) : Bool :=
  c != '"' && c != '\\' && c != ':'

theorem isInExpression_of {p : Char → Bool} (hp : ['"', '\\', ':'].any p = false)
    (h : p c = true) : isInExpression c = true := by
  have hne : ∀ d ∈ ['"', '\\', ':'], c ≠ d := by
    rintro d hd rfl
    exact List.any_eq_false.1 hp c hd h
  simp only [List.forall_mem_cons] at hne
  simp [isInExpression, hne]

theorem isInExpression_of_isBlank (h : isBlank c = true) : isInExpression c = true :=
  isInExpression_of (by decide) h

theorem isInExpression_of_continuesName (h : continuesName c = true) : isInExpression c = true :=
  isInExpression_of (by decide) h

theorem isInExpression_of_continuesNumber (h : continuesNumber c = true) :
    isInExpression c = true :=
  isInExpression_of (by decide) h

theorem outside_of_isBlank (h : IsBlank cs) : Outside isInExpression cs :=
  outside_of_forall fun c hc => isInExpression_of_isBlank (h c hc)

/-- What a token takes up is read as closed literals and characters of expressions. -/
theorem Takes.outside (h : Takes cs t rest) (hrest : Outside isInExpression rest) :
    Outside isInExpression cs := by
  have hrun : ∀ {q : Char → Bool} (c : Char) (ds : List Char), isInExpression c = true →
      (∀ d, q d = true → isInExpression d = true) →
      Outside isInExpression (ds.dropWhile q) → Outside isInExpression (c :: ds) := by
    intro q c ds hc hq hds
    rw [← List.takeWhile_append_dropWhile (p := q) (l := ds)]
    exact .char hc ((outside_of_forall fun d hd => hq d (List.mem_takeWhile_imp hd)).append hds)
  cases h with
  | @number c cs x hc hx =>
    exact hrun c cs (isInExpression_of_continuesNumber (continuesNumber_of_startsNumber hc))
      (fun d => isInExpression_of_continuesNumber) hrest
  | @name c cs hc =>
    exact hrun c cs (isInExpression_of_continuesName (continuesName_of_startsName hc))
      (fun d => isInExpression_of_continuesName) hrest
  | text hl => exact .literal hl hrest
  | opening | closing | comma => exact .char (by decide) hrest
  | @sign s cs hs =>
    have hall : s.chars.all isInExpression = true := by cases s <;> decide
    exact (outside_of_all hall).append hrest

theorem Scans.outside (h : Scans cs ts) : Outside isInExpression cs := by
  induction h with
  | nil => exact .nil
  | blank hc h ih => exact .char (isInExpression_of_isBlank hc) ih
  | token ht h ih => exact ht.outside ih

/-! ### Texts that are akin -/

theorem Akin.symm (h : Akin P cs ds) : Akin (fun a b => P b a) ds cs := by
  induction h with
  | done hb hw => exact .done hw hb
  | char hc h ih => exact .char hc ih
  | literal hl hm hp h ih => exact .literal hm hl hp ih
  | blanks hb hw h ih => exact .blanks hw hb ih

theorem Akin.mono {Q : List Char → List Char → Prop} (h : Akin P cs ds)
    (hpq : ∀ a b, P a b → Q a b) : Akin Q cs ds := by
  induction h with
  | done hb hw => exact .done hb hw
  | char hc h ih => exact .char hc ih
  | literal hl hm hp h ih => exact .literal hl hm (hpq _ _ hp) ih
  | blanks hb hw h ih => exact .blanks hb hw ih

theorem Akin.blank {b w : Char} (hb : isBlank b = true) (hw : isBlank w = true)
    (h : Akin P cs ds) : Akin P (b :: cs) (w :: ds) :=
  @Akin.blanks P b w [] [] cs ds (isBlank_cons.2 ⟨hb, isBlank_nil⟩)
    (isBlank_cons.2 ⟨hw, isBlank_nil⟩) h

theorem Outside.akin (h : Outside isInExpression cs) : Akin Eq cs cs := by
  induction h with
  | nil => exact .done isBlank_nil isBlank_nil
  | @char c cs hc h ih =>
    cases hb : isBlank c with
    | true => exact ih.blank hb hb
    | false =>
      simp only [isInExpression, Bool.and_eq_true, bne_iff_ne] at hc
      exact .char (isPlain_iff.2 ⟨hb, hc.1.1, hc.1.2⟩) ih
  | literal hl h ih => exact .literal hl hl rfl ih

theorem not_isPlain_of_isBlank (h : isBlank c = true) : isPlain c = false := by
  simp [isPlain, h]

/-- A plain character stands in both texts. -/
theorem Akin.of_cons (h : Akin P (c :: cs) ds) (hc : isPlain c = true) :
    ∃ ds', ds = c :: ds' ∧ Akin P cs ds' := by
  have hblank := (isPlain_iff.1 hc).1
  cases h with
  | done hb hw => exact absurd (isBlank_cons.1 hb).1 (by simp [hblank])
  | char _ h => exact ⟨_, rfl, h⟩
  | literal => exact absurd hc (by decide)
  | blanks hb hw h => exact absurd (isBlank_cons.1 hb).1 (by simp [hblank])

/-- Plain characters stand in both texts. -/
theorem Akin.of_append (h : Akin P (cs ++ rest) ds) (hcs : ∀ c ∈ cs, isPlain c = true) :
    ∃ rest', ds = cs ++ rest' ∧ Akin P rest rest' := by
  induction cs generalizing ds with
  | nil => exact ⟨ds, rfl, h⟩
  | cons c cs ih =>
    obtain ⟨ds', rfl, h'⟩ := h.of_cons (hcs c List.mem_cons_self)
    obtain ⟨rest', rfl, hrest⟩ := ih h' fun d hd => hcs d (List.mem_cons_of_mem c hd)
    exact ⟨rest', rfl, hrest⟩

/-- A run of blanks in front of a text with a plain character lies before that character. -/
theorem exists_of_append_eq {bs bs' cs' : List Char} (hbs : IsBlank bs')
    (hc : isPlain c = true) (h : bs' ++ cs' = bs ++ c :: cs) :
    ∃ more, bs = bs' ++ more ∧ cs' = more ++ c :: cs := by
  obtain ⟨more, rfl, hcs⟩ | ⟨more, rfl, hcs⟩ := List.append_eq_append_iff.1 h
  · exact ⟨more, rfl, hcs⟩
  · cases more with
    | nil => exact ⟨[], by simp, hcs.symm⟩
    | cons d more =>
      cases hcs
      have hd := hbs c (List.mem_append_right bs List.mem_cons_self)
      exact absurd hc (by simp [not_isPlain_of_isBlank hd])

/-- Against blanks before a plain character stand blanks. -/
theorem Akin.of_blanks {bs : List Char} (h : Akin P (bs ++ c :: cs) ds) (hbs : IsBlank bs)
    (hc : isPlain c = true) : ∃ ws ds', ds = ws ++ c :: ds' ∧ IsBlank ws ∧ Akin P cs ds' := by
  generalize htext : bs ++ c :: cs = text at h
  induction h generalizing bs with
  | @done bs' ws' hb hw =>
    have hend : bs' ++ [] = bs ++ c :: cs := by rw [List.append_nil, htext]
    obtain ⟨more, -, hmore⟩ := exists_of_append_eq hb hc hend
    simp at hmore
  | @char c' cs' ds' hc' h ih =>
    cases bs with
    | nil =>
      cases htext
      exact ⟨[], ds', rfl, isBlank_nil, h⟩
    | cons b bs =>
      cases htext
      exact absurd hc' (by simp [not_isPlain_of_isBlank (isBlank_cons.1 hbs).1])
  | literal =>
    cases bs with
    | nil =>
      cases htext
      exact absurd hc (by decide)
    | cons b bs =>
      have hb := (isBlank_cons.1 hbs).1
      rw [(List.cons.inj htext).1] at hb
      exact absurd hb (by decide)
  | @blanks b w bs' ws' cs' ds' hb hw h ih =>
    obtain ⟨more, rfl, hmore⟩ := exists_of_append_eq hb hc htext.symm
    have hmoreBlank : IsBlank more := fun d hd => hbs d (List.mem_append_right _ hd)
    obtain ⟨ws, ds'', rfl, hws, h'⟩ := ih hmoreBlank hmore.symm
    refine ⟨w :: ws' ++ ws, ds'', by simp, ?_, h'⟩
    intro d hd
    exact (List.mem_append.1 hd).elim (hw d) (hws d)

theorem Akin.isBlank_iff (h : Akin P cs ds) : IsBlank cs ↔ IsBlank ds := by
  induction h with
  | done hb hw => exact ⟨fun _ => hw, fun _ => hb⟩
  | char hc h ih => simp [isBlank_cons, ih]
  | literal => simp [isBlank_cons, show isBlank '"' = false by decide]
  | blanks hb hw h ih =>
    rw [isBlank_cons] at hb hw
    simp only [isBlank_cons, isBlank_append, hb, hw, true_and, ih]

/-- A text that starts with no plain character. No run of a token goes on into it. -/
def Stops (cs : List Char) : Prop :=
  ∀ c ∈ cs.head?, isPlain c = false

theorem stops_nil : Stops [] := by
  simp [Stops]

theorem stops_cons : Stops (c :: cs) ↔ isPlain c = false := by
  simp [Stops]

theorem stops_of_isBlank (h : IsBlank cs) (ds : List Char) (hds : Stops ds) : Stops (cs ++ ds) := by
  cases cs with
  | nil => exact hds
  | cons c cs => exact stops_cons.2 (not_isPlain_of_isBlank (isBlank_cons.1 h).1)

/-- Akin texts start with the same plain character, or both with none. -/
theorem Akin.head (h : Akin P cs ds) :
    (∃ c cs' ds', isPlain c = true ∧ cs = c :: cs' ∧ ds = c :: ds' ∧ Akin P cs' ds') ∨
      Stops cs ∧ Stops ds := by
  cases h with
  | @done bs ws hb hw =>
    have hbs := stops_of_isBlank hb [] stops_nil
    have hws := stops_of_isBlank hw [] stops_nil
    rw [List.append_nil] at hbs hws
    exact .inr ⟨hbs, hws⟩
  | @char c cs ds hc h => exact .inl ⟨c, cs, ds, hc, rfl, rfl, h⟩
  | literal => exact .inr ⟨stops_cons.2 (by decide), stops_cons.2 (by decide)⟩
  | blanks hb hw h =>
    have hb' := not_isPlain_of_isBlank (isBlank_cons.1 hb).1
    have hw' := not_isPlain_of_isBlank (isBlank_cons.1 hw).1
    exact .inr ⟨stops_cons.2 hb', stops_cons.2 hw'⟩

theorem Stops.takeWhile_eq (h : Stops cs) (hp : ∀ c, p c = true → isPlain c = true) :
    cs.takeWhile p = [] ∧ cs.dropWhile p = cs := by
  cases cs with
  | nil => exact ⟨rfl, rfl⟩
  | cons c cs =>
    have hpc : ¬ p c = true := fun hpc => absurd (hp c hpc) (by simp [stops_cons.1 h])
    exact ⟨List.takeWhile_cons_of_neg hpc, List.dropWhile_cons_of_neg hpc⟩

/-- Akin texts go on with the same run of a token, and are akin behind it. -/
theorem Akin.takeWhile_eq (h : Akin P cs ds) (hp : ∀ c, p c = true → isPlain c = true) :
    cs.takeWhile p = ds.takeWhile p ∧ Akin P (cs.dropWhile p) (ds.dropWhile p) := by
  have hstops : ∀ {cs ds : List Char}, Akin P cs ds → Stops cs → Stops ds →
      cs.takeWhile p = ds.takeWhile p ∧ Akin P (cs.dropWhile p) (ds.dropWhile p) := by
    intro cs ds h hcs hds
    rw [(hcs.takeWhile_eq hp).1, (hcs.takeWhile_eq hp).2, (hds.takeWhile_eq hp).1,
      (hds.takeWhile_eq hp).2]
    exact ⟨rfl, h⟩
  induction cs generalizing ds with
  | nil =>
    obtain ⟨c, cs', ds', hc, hcs, -, -⟩ | ⟨hcs, hds⟩ := h.head
    · cases hcs
    · exact hstops h hcs hds
  | cons c cs ih =>
    obtain ⟨c', cs', ds', hc, hcs, rfl, h'⟩ | ⟨hcs, hds⟩ := h.head
    · cases hcs
      cases hpc : p c with
      | true => simpa [hpc] using ih h'
      | false => simpa [hpc] using h
    · exact hstops h hcs hds

theorem Stops.startsNumber_eq (h : Stops cs) (c : Char) : startsNumber c cs = c.isDigit := by
  cases cs with
  | nil => simp [startsNumber]
  | cons d cs =>
    have hd : d.isDigit = false := by
      cases hdigit : d.isDigit with
      | false => rfl
      | true =>
        have hplain := isPlain_of_continuesNumber (c := d) (by simp [continuesNumber, hdigit])
        exact absurd hplain (by simp [stops_cons.1 h])
    simp [startsNumber, hd]

/-- The sign at the front of a text shows in its first two characters. -/
theorem sign?_take (c : Char) (cs : List Char) : sign? (c :: cs) = sign? (c :: cs.take 1) := by
  unfold sign?
  congr 1
  funext s
  cases s <;> cases cs <;> simp [Sign.chars, List.isPrefixOf]

theorem Stops.sign?_eq (h : Stops cs) (c : Char) : sign? (c :: cs) = sign? [c] := by
  cases cs with
  | nil => rfl
  | cons d cs =>
    have hd : ∀ b, isPlain b = true → b ≠ d := by
      rintro b hb rfl
      exact absurd hb (by simp [stops_cons.1 h])
    have hset := hd '=' (by decide)
    have hand := hd '&' (by decide)
    have hor := hd '|' (by decide)
    unfold sign?
    congr 1
    funext s
    cases s <;> simp [Sign.chars, List.isPrefixOf, hset, hand, hor]

theorem Akin.sign?_eq (h : Akin P cs ds) (s : Sign) :
    sign? (s.chars ++ cs) = sign? (s.chars ++ ds) := by
  have hone : ∀ c : Char, sign? (c :: cs) = sign? (c :: ds) := by
    intro c
    obtain ⟨d, cs', ds', -, rfl, rfl, -⟩ | ⟨hcs, hds⟩ := h.head
    · rw [sign?_take, sign?_take c (d :: ds')]
      rfl
    · rw [hcs.sign?_eq, hds.sign?_eq]
  have htwo : ∀ c d : Char, sign? (c :: d :: cs) = sign? (c :: d :: ds) := by
    intro c d
    rw [sign?_take, sign?_take c (d :: ds)]
    rfl
  cases s <;> first | exact hone _ | exact htwo _ _

theorem Akin.startsNumber_eq (h : Akin P cs ds) (c : Char) :
    startsNumber c cs = startsNumber c ds := by
  obtain ⟨d, cs', ds', -, rfl, rfl, -⟩ | ⟨hcs, hds⟩ := h.head
  · rfl
  · rw [hcs.startsNumber_eq, hds.startsNumber_eq]

theorem Akin.of_literal {l held : List Char} (h : Akin P ('"' :: (l ++ cs)) ds)
    (hl : Literal l held) : ∃ m b ds', ds = '"' :: (m ++ ds') ∧ Literal m b ∧ P held b ∧
      Akin P cs ds' := by
  generalize htext : '"' :: (l ++ cs) = text at h
  cases h with
  | done hb hw =>
    subst htext
    exact absurd (isBlank_cons.1 hb).1 (by decide)
  | char hc h =>
    rw [← (List.cons.inj htext).1] at hc
    exact absurd hc (by decide)
  | @literal l' m a b cs' ds' hl' hm hp h =>
    obtain ⟨rfl, rfl, rfl⟩ := hl.unique hl' (List.cons.inj htext).2
    exact ⟨m, b, ds', rfl, hm, hp, h⟩
  | blanks hb hw h =>
    have hquote := (isBlank_cons.1 hb).1
    rw [← (List.cons.inj htext).1] at hquote
    exact absurd hquote (by decide)

/-- The same token, or two texts that are related. -/
inductive SameBut (P : List Char → List Char → Prop) : Token → Token → Prop where
  | same (t : Token) : SameBut P t t
  | text {a b : List Char} (h : P a b) :
      SameBut P (.text (String.ofList a)) (.text (String.ofList b))

/-- Akin texts start with the same token, up to what it holds as a text. -/
theorem Akin.takes (h : Akin P cs ds) (ht : Takes cs t rest) :
    ∃ u rest', Takes ds u rest' ∧ SameBut P t u ∧ Akin P rest rest' := by
  cases ht with
  | @number c cs x hc hx =>
    obtain ⟨ds, rfl, h'⟩ := h.of_cons
      (isPlain_of_continuesNumber (continuesNumber_of_startsNumber hc))
    obtain ⟨hrun, hrest⟩ := h'.takeWhile_eq fun c => isPlain_of_continuesNumber
    rw [h'.startsNumber_eq] at hc
    rw [hrun] at hx
    exact ⟨_, _, .number hc hx, .same _, hrest⟩
  | @name c cs hc =>
    obtain ⟨ds, rfl, h'⟩ := h.of_cons (isPlain_of_continuesName (continuesName_of_startsName hc))
    obtain ⟨hrun, hrest⟩ := h'.takeWhile_eq fun c => isPlain_of_continuesName
    rw [hrun]
    exact ⟨_, _, .name hc, .same _, hrest⟩
  | text hl =>
    obtain ⟨m, b, ds, rfl, hm, hp, h'⟩ := h.of_literal hl
    exact ⟨_, _, .text hm ds, .text hp, h'⟩
  | opening =>
    obtain ⟨ds, rfl, h'⟩ := h.of_cons (by decide)
    exact ⟨_, _, .opening ds, .same _, h'⟩
  | closing =>
    obtain ⟨ds, rfl, h'⟩ := h.of_cons (by decide)
    exact ⟨_, _, .closing ds, .same _, h'⟩
  | comma =>
    obtain ⟨ds, rfl, h'⟩ := h.of_cons (by decide)
    exact ⟨_, _, .comma ds, .same _, h'⟩
  | @sign s cs hs =>
    have hplain : ∀ s : Sign, s.chars.all isPlain = true := by
      intro s
      cases s <;> decide
    obtain ⟨ds, rfl, h'⟩ := h.of_append (List.all_eq_true.1 (hplain s))
    rw [h'.sign?_eq] at hs
    exact ⟨_, _, .sign hs, .same _, h'⟩

theorem scans_append_of_isBlank {bs : List Char} (hbs : IsBlank bs) (h : Scans cs ts) :
    Scans (bs ++ cs) ts := by
  induction bs with
  | nil => exact h
  | cons b bs ih =>
    obtain ⟨hb, hbs⟩ := isBlank_cons.1 hbs
    exact .blank hb (ih hbs)

/-- Akin texts have akin tokens. -/
theorem Akin.scans (h : Akin P cs ds) (hs : Scans cs ts) :
    ∃ us, Scans ds us ∧ List.Forall₂ (SameBut P) ts us := by
  induction hs generalizing ds with
  | nil =>
    have hblank := h.isBlank_iff.1 isBlank_nil
    refine ⟨[], ?_, .nil⟩
    simpa using scans_append_of_isBlank hblank .nil
  | @blank c cs ts hc hs ih =>
    cases h with
    | done hb hw => exact ih (.done (isBlank_cons.1 hb).2 hw)
    | char hplain h => exact absurd hplain (by simp [not_isPlain_of_isBlank hc])
    | literal => exact absurd hc (by decide)
    | @blanks b w bs ws cs ds hb hw h =>
      cases bs with
      | nil =>
        obtain ⟨us, hus, hall⟩ := ih h
        exact ⟨us, scans_append_of_isBlank hw hus, hall⟩
      | cons b' bs => exact ih (.blanks (isBlank_cons.1 hb).2 hw h)
  | token ht hs ih =>
    obtain ⟨u, rest', hu, hsame, h'⟩ := h.takes ht
    obtain ⟨us, hus, hall⟩ := ih h'
    exact ⟨u :: us, .token hu hus, .cons hsame hall⟩

/-! ### Trimming -/

theorem Akin.trimStart (h : Akin P cs ds) : Akin P (trimStart cs) (trimStart ds) := by
  induction h with
  | done hb hw =>
    rw [trimStart_eq_nil hb, trimStart_eq_nil hw]
    exact .done isBlank_nil isBlank_nil
  | char hc h =>
    rw [trimStart_cons (isPlain_iff.1 hc).1, trimStart_cons (isPlain_iff.1 hc).1]
    exact .char hc h
  | literal hl hm hp h =>
    rw [trimStart_cons (by decide), trimStart_cons (by decide)]
    exact .literal hl hm hp h
  | blanks hb hw h ih =>
    rw [← List.cons_append, ← List.cons_append, trimStart_of_isBlank hb, trimStart_of_isBlank hw]
    exact ih

theorem Akin.trimEnd_left (h : Akin P cs ds) : Akin P (trimEnd cs) ds := by
  induction h with
  | done hb hw =>
    rw [trimEnd_eq_nil_iff.2 hb]
    exact .done isBlank_nil hw
  | char hc h ih =>
    rw [trimEnd_cons (isPlain_iff.1 hc).1]
    exact .char hc ih
  | literal hl hm hp h ih =>
    rw [← List.cons_append, trimEnd_append_of_ne_nil hl.trimEnd_eq]
    exact .literal hl hm hp ih
  | @blanks b w bs ws cs ds hb hw h ih =>
    rw [← List.cons_append, trimEnd_append]
    split
    · rename_i hcs
      have hds := h.isBlank_iff.1 (trimEnd_eq_nil_iff.1 hcs)
      rw [trimEnd_eq_nil_iff.2 hb]
      exact .done isBlank_nil (isBlank_append.2 ⟨hw, hds⟩)
    · exact .blanks hb hw ih

theorem Akin.trimEnd_right (h : Akin P cs ds) : Akin P cs (trimEnd ds) :=
  h.symm.trimEnd_left.symm

theorem Akin.trim (h : Akin P cs ds) : Akin P (trim cs) (trim ds) :=
  h.trimStart.trimEnd_left.trimEnd_right

theorem outside_of_trim (h : Outside isInExpression (Text.trim cs)) :
    Outside isInExpression cs := by
  obtain ⟨bs, ws, hbs, hws, htrim⟩ := exists_trim cs
  rw [htrim]
  exact ((outside_of_isBlank hbs).append h).append (outside_of_isBlank hws)

end Playhead.Token
