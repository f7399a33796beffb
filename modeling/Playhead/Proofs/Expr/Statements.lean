import Playhead.Expr.Assignment
import Playhead.Proofs.Expr.Phrases

/-!
Statements of assignments, and what their text is read as.

Each reader of the text (the cut at semicolons, the cut at the equals sign, the scanner) looks for
literals by itself. They find the same ones in all that is accepted. Main statement: texts that are
joined by a semicolon assign what they assign one after the other, whatever their literals hold.
-/

namespace Playhead.Assignment

open Text Token

variable {P : List Char → List Char → Prop} {q : QuoteState} {c : Char}
  {cs ds l held st st' name right : List Char} {ps qs : List (List Char)} {target : String}
  {op : AssignOp} {ts : List Token}

/-! ### The cut at semicolons -/

theorem exists_splitStatements (q : QuoteState) (cs : List Char) :
    ∃ p ps, splitStatements q cs = p :: ps := by
  have hcons : ∀ c ps, ∃ p more, consFirst c ps = p :: more := by
    intro c ps
    cases ps <;> exact ⟨_, _, rfl⟩
  cases cs with
  | nil => cases q <;> exact ⟨_, _, rfl⟩
  | cons c cs =>
    cases q with
    | outside =>
      rw [splitStatements]
      split
      · exact ⟨_, _, rfl⟩
      · exact hcons _ _
    | inside | escaped => exact hcons _ _

/-- Adds characters in front of the first statement. -/
theorem foldr_consFirst (cs p : List Char) (ps : List (List Char)) :
    cs.foldr consFirst (p :: ps) = (cs ++ p) :: ps := by
  induction cs with
  | nil => rfl
  | cons c cs ih =>
    rw [List.foldr_cons, ih]
    rfl

/-- A literal lies in one statement. -/
theorem splitStatements_literal (h : Literal l held) (cs : List Char) :
    splitStatements .inside (l ++ cs) = l.foldr consFirst (splitStatements .outside cs) := by
  induction h with
  | close => rfl
  | escape c h ih =>
    rw [List.foldr_cons, List.foldr_cons, ← ih]
    rfl
  | char hquote hback h ih =>
    rw [List.foldr_cons, ← ih, List.cons_append, splitStatements, if_neg hback, if_neg hquote]

theorem splitStatements_quote (h : Literal l held) (cs : List Char) :
    splitStatements .outside ('"' :: (l ++ cs)) =
      ('"' :: l).foldr consFirst (splitStatements .outside cs) := by
  rw [splitStatements, if_neg (by decide), if_pos rfl, splitStatements_literal h]
  rfl

theorem splitStatements_cons (hsemi : c ≠ ';') (hquote : c ≠ '"') (cs : List Char) :
    splitStatements .outside (c :: cs) = consFirst c (splitStatements .outside cs) := by
  rw [splitStatements, if_neg hsemi, if_neg hquote]

theorem splitStatements_blank (h : isBlank c = true) (cs : List Char) :
    splitStatements .outside (c :: cs) = consFirst c (splitStatements .outside cs) :=
  splitStatements_cons (ne_of_isBlank h (by decide)) (ne_of_isBlank h (by decide)) cs

/-- A text whose literals are closed is cut by itself. -/
theorem splitStatements_append (h : Outside isInExpression cs) (ds : List Char) :
    splitStatements .outside (cs ++ ';' :: ds) =
      splitStatements .outside cs ++ splitStatements .outside ds := by
  induction h with
  | nil => rfl
  | @char c cs hc h ih =>
    by_cases hsemi : c = ';'
    · subst hsemi
      show [] :: splitStatements .outside (cs ++ ';' :: ds) = _
      rw [ih]
      rfl
    · simp only [isInExpression, Bool.and_eq_true, bne_iff_ne] at hc
      obtain ⟨p, ps, hcut⟩ := exists_splitStatements .outside cs
      rw [List.cons_append, splitStatements_cons hsemi hc.1.1, splitStatements_cons hsemi hc.1.1,
        ih, hcut]
      rfl
  | @literal l held cs hl h ih =>
    obtain ⟨p, ps, hcut⟩ := exists_splitStatements .outside cs
    rw [List.cons_append, List.append_assoc, splitStatements_quote hl, splitStatements_quote hl,
      ih, hcut, List.cons_append, foldr_consFirst, foldr_consFirst]
    rfl

theorem intercalate_splitStatements (q : QuoteState) (cs : List Char) :
    [';'].intercalate (splitStatements q cs) = cs := by
  have hcons : ∀ (q : QuoteState) (c : Char) (cs : List Char),
      [';'].intercalate (splitStatements q cs) = cs →
      [';'].intercalate (consFirst c (splitStatements q cs)) = c :: cs := by
    intro q c cs h
    obtain ⟨p, ps, hcut⟩ := exists_splitStatements q cs
    rw [hcut] at h ⊢
    rw [← h]
    cases ps <;> simp [consFirst, List.intercalate]
  induction cs generalizing q with
  | nil => cases q <;> rfl
  | cons c cs ih =>
    cases q with
    | outside =>
      rw [splitStatements]
      split
      · rename_i hsemi
        obtain ⟨p, ps, hcut⟩ := exists_splitStatements .outside cs
        have htail := ih .outside
        rw [hcut] at htail ⊢
        rw [hsemi, ← htail]
        simp [List.intercalate]
      · exact hcons _ c cs (ih _)
    | inside => exact hcons _ c cs (ih _)
    | escaped => exact hcons _ c cs (ih _)

/-- The literals of a text are closed if those of each statement are. -/
theorem outside_of_splitStatements
    (h : ∀ p ∈ splitStatements q cs, Outside isInExpression p) : Outside isInExpression cs := by
  rw [← intercalate_splitStatements q cs]
  generalize splitStatements q cs = ps at h
  induction ps with
  | nil => exact .nil
  | cons p ps ih =>
    have hp := h p List.mem_cons_self
    have hps := ih fun p' hp' => h p' (List.mem_cons_of_mem p hp')
    cases ps with
    | nil => simpa [List.intercalate] using hp
    | cons p' ps =>
      have hjoin : [';'].intercalate (p :: p' :: ps) =
          p ++ ';' :: [';'].intercalate (p' :: ps) := by
        simp [List.intercalate]
      rw [hjoin]
      exact hp.append (.char (by decide) hps)

/-- Akin texts are cut into akin statements. -/
theorem forall₂_splitStatements (h : Akin P cs ds) :
    List.Forall₂ (Akin P) (splitStatements .outside cs) (splitStatements .outside ds) := by
  have hblank : ∀ {bs : List Char} (cs : List Char), IsBlank bs →
      splitStatements .outside (bs ++ cs) = bs.foldr consFirst (splitStatements .outside cs) := by
    intro bs cs hbs
    induction bs with
    | nil => rfl
    | cons b bs ih =>
      obtain ⟨hb, hbs⟩ := isBlank_cons.1 hbs
      rw [List.cons_append, splitStatements_blank hb, ih hbs]
      rfl
  have hfirst : ∀ (bs ws : List Char) {cs ds : List Char},
      (∀ {p p'}, Akin P p p' → Akin P (bs ++ p) (ws ++ p')) →
      List.Forall₂ (Akin P) (splitStatements .outside cs) (splitStatements .outside ds) →
      List.Forall₂ (Akin P) (bs.foldr consFirst (splitStatements .outside cs))
        (ws.foldr consFirst (splitStatements .outside ds)) := by
    intro bs ws cs ds hakin hall
    obtain ⟨p, ps, hcs⟩ := exists_splitStatements .outside cs
    obtain ⟨p', ps', hds⟩ := exists_splitStatements .outside ds
    rw [hcs, hds] at hall ⊢
    rw [foldr_consFirst, foldr_consFirst]
    cases hall with
    | cons hp hps => exact .cons (hakin hp) hps
  induction h with
  | @done bs ws hb hw =>
    have hbs := hblank [] hb
    have hws := hblank [] hw
    rw [List.append_nil] at hbs hws
    rw [hbs, hws, splitStatements, foldr_consFirst, foldr_consFirst, List.append_nil,
      List.append_nil]
    exact .cons (.done hb hw) .nil
  | @char c cs ds hc h ih =>
    by_cases hsemi : c = ';'
    · subst hsemi
      exact .cons (.done isBlank_nil isBlank_nil) ih
    · have hquote := (isPlain_iff.1 hc).2.1
      rw [splitStatements_cons hsemi hquote, splitStatements_cons hsemi hquote]
      exact hfirst [c] [c] (fun hp => .char hc hp) ih
  | literal hl hm hp h ih =>
    rw [splitStatements_quote hl, splitStatements_quote hm]
    exact hfirst _ _ (fun hp' => .literal hl hm hp hp') ih
  | blanks hb hw h ih =>
    rw [← List.cons_append, ← List.cons_append, hblank _ hb, hblank _ hw]
    exact hfirst _ _ (fun hp => .blanks hb hw hp) ih

/-! ### The cut at the equals sign -/

theorem splitAtEquals_eq_some {previous : Char} {left : List Char}
    (h : splitAtEquals previous cs = some (left, right)) :
    cs = left ++ '=' :: right ∧ right.head? ≠ some '=' := by
  induction cs generalizing previous left with
  | nil => cases h
  | cons c cs ih =>
    rw [splitAtEquals] at h
    split at h
    · rename_i hcut
      simp only [Bool.and_eq_true, decide_eq_true_eq, bne_iff_ne] at hcut
      cases h
      exact ⟨by rw [hcut.1.1]; rfl, hcut.1.2⟩
    · obtain ⟨⟨left', right'⟩, hsplit, heq⟩ := Option.map_eq_some_iff.1 h
      cases heq
      obtain ⟨rfl, hhead⟩ := ih hsplit
      exact ⟨rfl, hhead⟩

/-- Characters that make no comparison with an equals sign behind them. -/
def leadsToEquals (c : Char) : Bool :=
  !"=!<>".toList.contains c

theorem splitAtEquals_append {previous : Char} {left : List Char}
    (hprevious : leadsToEquals previous = true) (hleft : ∀ c ∈ left, leadsToEquals c = true)
    (hright : right.head? ≠ some '=') :
    splitAtEquals previous (left ++ '=' :: right) = some (left, right) := by
  induction left generalizing previous with
  | nil =>
    have hnot : "=!<>".toList.contains previous = false := by simpa [leadsToEquals] using hprevious
    rw [List.nil_append, splitAtEquals, hnot]
    simp [hright]
  | cons c left ih =>
    have hc := hleft c List.mem_cons_self
    have hne : c ≠ '=' := by
      rintro rfl
      exact absurd hc (by decide)
    have htail := ih hc fun d hd => hleft d (List.mem_cons_of_mem c hd)
    rw [List.cons_append, splitAtEquals, if_neg (by simp [hne]), htail]
    rfl

theorem leadsToEquals_of {p : Char → Bool} (hp : "=!<>".toList.any p = false)
    (h : p c = true) : leadsToEquals c = true := by
  have hnot : c ∉ "=!<>".toList := fun hmem => List.any_eq_false.1 hp c hmem h
  rw [leadsToEquals, Bool.not_eq_true', ← Bool.not_eq_true, List.contains_iff_mem]
  exact hnot

theorem leadsToEquals_of_isBlank (h : isBlank c = true) : leadsToEquals c = true :=
  leadsToEquals_of (by decide) h

theorem leadsToEquals_of_continuesName (h : continuesName c = true) : leadsToEquals c = true :=
  leadsToEquals_of (by decide) h

theorem isName_iff : isName name = true ↔
    ∃ c cs, name = c :: cs ∧ startsName c = true ∧ ∀ d ∈ cs, continuesName d = true := by
  cases name with
  | nil => simp [isName]
  | cons c cs => simp [isName]

theorem continuesName_of_isName (h : isName name = true) :
    ∀ c ∈ name, continuesName c = true := by
  obtain ⟨c, cs, rfl, hc, hcs⟩ := isName_iff.1 h
  rintro d (_ | ⟨_, hd⟩)
  · exact continuesName_of_startsName hc
  · exact hcs d hd

/-- A statement assigns with a plain equals sign if it starts with a name and one. -/
theorem plain?_eq_some_iff : plain? st = some (name, right) ↔
    isName name = true ∧ right.head? ≠ some '=' ∧ ∃ bs ws, IsBlank bs ∧ IsBlank ws ∧
      st = bs ++ (name ++ (ws ++ '=' :: right)) := by
  constructor
  · intro h
    unfold plain? at h
    split at h
    · rename_i left right' hsplit
      dsimp only at h
      split at h
      · rename_i hname
        cases h
        obtain ⟨rfl, hright⟩ := splitAtEquals_eq_some hsplit
        obtain ⟨bs, ws, hbs, hws, htrim⟩ := exists_trim left
        refine ⟨hname, hright, bs, ws, hbs, hws, ?_⟩
        conv_lhs => rw [htrim]
        simp
      · cases h
    · cases h
  · rintro ⟨hname, hright, bs, ws, hbs, hws, rfl⟩
    have hall := continuesName_of_isName hname
    have hleft : ∀ c ∈ bs ++ name ++ ws, leadsToEquals c = true := by
      intro c hc
      simp only [List.mem_append] at hc
      obtain (hc | hc) | hc := hc
      · exact leadsToEquals_of_isBlank (hbs c hc)
      · exact leadsToEquals_of_continuesName (hall c hc)
      · exact leadsToEquals_of_isBlank (hws c hc)
    have hblank : ∀ c ∈ name, isBlank c = false := fun c hc =>
      (isPlain_iff.1 (isPlain_of_continuesName (hall c hc))).1
    have htrim : trim (bs ++ name ++ ws) = name := by
      obtain ⟨c, cs, rfl, -, -⟩ := isName_iff.1 hname
      rw [List.append_assoc, trim_append_left hbs, List.cons_append,
        trim_cons (hblank c List.mem_cons_self), trimEnd_append_isBlank hws,
        trimEnd_eq_self fun d hd => hblank d (List.mem_cons_of_mem c hd)]
    have hsplit : splitAtEquals ' ' _ = _ := splitAtEquals_append (by decide) hleft hright
    simp only [List.append_assoc] at hsplit htrim
    unfold plain?
    rw [hsplit]
    simp [htrim, hname]

theorem exists_plain? (h : Akin P st st') (hplain : plain? st = some (name, right)) :
    ∃ right', plain? st' = some (name, right') ∧ Akin P right right' := by
  obtain ⟨hname, hright, bs, ws, hbs, hws, rfl⟩ := plain?_eq_some_iff.1 hplain
  have hall := continuesName_of_isName hname
  obtain ⟨c, cs, rfl, hc, hcs⟩ := isName_iff.1 hname
  obtain ⟨bs', rest, rfl, hbs', hrest⟩ :=
    h.of_blanks hbs (isPlain_of_continuesName (continuesName_of_startsName hc))
  obtain ⟨rest', rfl, hrest'⟩ :=
    hrest.of_append fun d hd => isPlain_of_continuesName (hcs d hd)
  obtain ⟨ws', right', rfl, hws', hright'⟩ := hrest'.of_blanks hws (by decide)
  refine ⟨right', plain?_eq_some_iff.2 ⟨hname, ?_, bs', ws', hbs', hws', by simp⟩, hright'⟩
  obtain ⟨d, cs', ds', -, rfl, rfl, -⟩ | ⟨-, hstops⟩ := hright'.head
  · exact hright
  · intro heq
    exact absurd (hstops '=' heq) (by decide)

/-! ### What a statement assigns -/

/-- A statement assigns to a name the expression of its tokens. -/
inductive Assigns : List Char → String → AssignOp → List Token → Prop where
  | plain {st name right : List Char} {ts : List Token} (hst : plain? st = some (name, right))
      (hts : Scans right ts) : Assigns st (String.ofList name) .set ts
  | compound {st : List Char} {target : String} {s : Sign} {op : AssignOp} {ts : List Token}
      (hst : plain? st = none) (hts : Scans st (.name target :: .sign s :: ts))
      (hop : AssignOp.ofSign? s = some op) : Assigns st target op ts

/-- A statement is read as an assignment. -/
def IsRead (st : List Char) (a : Assignment) : Prop :=
  ∃ ts, Assigns st a.target a.op ts ∧ Expr.ofTokens ts = .ok a.value

/-- What a statement assigns to, and whether it takes the old value in. -/
def leftSide (a : Assignment) : String × AssignOp :=
  (a.target, a.op)

theorem compound_eq_ok_iff {a : Assignment} : compound st = .ok a ↔
    ∃ s ts, Scans st (.name a.target :: .sign s :: ts) ∧ AssignOp.ofSign? s = some a.op ∧
      Expr.ofTokens ts = .ok a.value := by
  constructor
  · intro h
    unfold compound at h
    obtain ⟨tokens, htokens, h⟩ := exists_of_bind_ok h
    have hscan := scan_eq_ok_iff.1 (exists_of_mapError_ok htokens)
    split at h
    · rename_i target s rest
      split at h
      · cases h
      · rename_i op hop
        obtain ⟨⟨value, rest'⟩, htake, h⟩ := exists_of_bind_ok h
        dsimp only at h
        split at h
        · rename_i hempty
          cases h
          rw [List.isEmpty_iff.1 hempty] at htake
          exact ⟨s, rest, hscan, hop, Expr.ofTokens_eq_ok_iff.2 htake⟩
        · cases h
    · cases h
  · rintro ⟨s, ts, hscan, hop, hvalue⟩
    have htake := Expr.ofTokens_eq_ok_iff.1 hvalue
    unfold compound Expr.scanTokens
    rw [scan_eq_ok_iff.2 hscan]
    simp only [Except.mapError, bind, Except.bind, hop, htake]
    rfl

theorem parseStatement_eq_ok_iff {source : String} {a : Assignment} :
    parseStatement source st = .ok a ↔ IsRead st a := by
  unfold parseStatement
  constructor
  · intro h
    split at h
    · rename_i name right hplain
      obtain ⟨e, he, rfl⟩ := exists_of_map_ok h
      obtain ⟨ts, hts, hvalue⟩ := Expr.parse_eq_ok_iff.1 he
      rw [String.toList_ofList] at hts
      exact ⟨ts, .plain hplain hts, hvalue⟩
    · rename_i hplain
      obtain ⟨s, ts, hscan, hop, hvalue⟩ := compound_eq_ok_iff.1 (exists_of_mapError_ok h)
      exact ⟨ts, .compound hplain hscan hop, hvalue⟩
  · obtain ⟨target, op, value⟩ := a
    rintro ⟨ts, hassigns, hvalue⟩
    dsimp only at hassigns hvalue
    cases hassigns with
    | @plain name right _ hst hts =>
      have hparse : Expr.parse (String.ofList right) = .ok value :=
        Expr.parse_eq_ok_iff.2 ⟨_, by rwa [String.toList_ofList], hvalue⟩
      rw [hst]
      show (Expr.parse (String.ofList right)).map _ = _
      rw [hparse]
      rfl
    | compound hst hts hop =>
      have hcompound : compound st = .ok ⟨target, op, value⟩ :=
        compound_eq_ok_iff.2 ⟨_, ts, hts, hop, hvalue⟩
      rw [hst]
      show (compound st).mapError _ = _
      rw [hcompound]
      rfl

theorem parseStatements_eq_ok_iff {source : String} {l : List Assignment} :
    parseStatements source ps = .ok l ↔ List.Forall₂ IsRead ps l := by
  induction ps generalizing l with
  | nil =>
    constructor
    · intro h
      cases h
      exact .nil
    · intro h
      cases h
      rfl
  | cons p ps ih =>
    constructor
    · intro h
      obtain ⟨a, ha, h⟩ := exists_of_bind_ok h
      obtain ⟨more, hmore, h⟩ := exists_of_bind_ok h
      cases h
      exact .cons (parseStatement_eq_ok_iff.1 ha) (ih.1 hmore)
    · rintro (_ | ⟨ha, hmore⟩)
      rw [parseStatements, parseStatement_eq_ok_iff.2 ha]
      show (parseStatements source ps >>= _) = _
      rw [ih.2 hmore]
      rfl

/-- A text is read as assignments if each of its statements is read as one. -/
theorem parseAll_eq_ok_iff {source : String} {l : List Assignment} :
    parseAll source = .ok l ↔ l ≠ [] ∧ List.Forall₂ IsRead (statements source) l := by
  unfold parseAll
  rw [← parseStatements_eq_ok_iff]
  cases parseStatements source (statements source) with
  | error e =>
    constructor
    · intro h
      cases h
    · rintro ⟨-, h⟩
      cases h
  | ok all =>
    cases all with
    | nil =>
      constructor
      · intro h
        cases h
      · rintro ⟨hne, h⟩
        cases h
        exact absurd rfl hne
    | cons a all =>
      constructor
      · intro h
        cases h
        exact ⟨List.cons_ne_nil a all, rfl⟩
      · rintro ⟨-, h⟩
        cases h
        rfl

/-- Akin statements assign to the same name, and tokens that are akin. -/
theorem exists_assigns (h : Akin P st st') (ha : Assigns st target op ts) :
    ∃ us, Assigns st' target op us ∧ List.Forall₂ (SameBut P) ts us := by
  cases ha with
  | plain hst hts =>
    obtain ⟨right', hst', hright⟩ := exists_plain? h hst
    obtain ⟨us, hus, hall⟩ := hright.scans hts
    exact ⟨us, .plain hst' hus, hall⟩
  | compound hst hts hop =>
    obtain ⟨all, hscan, hall⟩ := h.scans hts
    obtain ⟨tail, rfl, htail⟩ := exists_forall₂_cons hall (by simp)
    obtain ⟨us, rfl, hus⟩ := exists_forall₂_cons htail (by simp)
    refine ⟨us, .compound ?_ hscan hop, hus⟩
    rw [Option.eq_none_iff_forall_ne_some]
    rintro ⟨name, right⟩ hplain
    obtain ⟨right', hplain', -⟩ := exists_plain? h.symm hplain
    rw [hst] at hplain'
    cases hplain'

/-- Whatever the literals of a statement hold, it assigns to the same name in the same way. -/
theorem exists_isRead {a : Assignment} (h : Akin (fun _ _ => True) st st') (ha : IsRead st a) :
    ∃ a', IsRead st' a' ∧ leftSide a' = leftSide a := by
  obtain ⟨ts, hassigns, hvalue⟩ := ha
  obtain ⟨us, hassigns', hall⟩ := exists_assigns h hassigns
  obtain ⟨value, hphrase⟩ := exists_phrase (Expr.phrase_of_ofTokens hvalue) hall
  exact ⟨⟨a.target, a.op, value⟩, ⟨us, hassigns', Expr.ofTokens_of_phrase hphrase⟩, rfl⟩

/-- Statements with the same literals assign the same. -/
theorem IsRead.akin {a : Assignment} (ha : IsRead st a) (h : Akin Eq st st') : IsRead st' a := by
  obtain ⟨ts, hassigns, hvalue⟩ := ha
  obtain ⟨us, hassigns', hall⟩ := exists_assigns h hassigns
  rw [eq_of_sameBut hall] at hvalue
  exact ⟨us, hassigns', hvalue⟩

/-- The literals of a statement are closed. -/
theorem Assigns.outside (h : Assigns st target op ts) : Outside isInExpression st := by
  cases h with
  | plain hst hts =>
    obtain ⟨hname, -, bs, ws, hbs, hws, rfl⟩ := plain?_eq_some_iff.1 hst
    have hnames := outside_of_forall fun c hc =>
      isInExpression_of_continuesName (continuesName_of_isName hname c hc)
    have hequals := Outside.char (c := '=') (by decide) hts.outside
    exact (outside_of_isBlank hbs).append
      (hnames.append ((outside_of_isBlank hws).append hequals))
  | compound hst hts hop => exact hts.outside

theorem statements_append {s₁ s₂ : String} (h : Outside isInExpression s₁.toList) :
    statements (s₁ ++ ";" ++ s₂) = statements s₁ ++ statements s₂ := by
  have hlist : (s₁ ++ ";" ++ s₂).toList = s₁.toList ++ ';' :: s₂.toList := by simp
  unfold statements
  rw [hlist, splitStatements_append h, List.map_append, List.filter_append]

theorem exists_of_mem {l : List Assignment} (h : List.Forall₂ IsRead ps l) (hst : st ∈ ps) :
    ∃ a, IsRead st a := by
  induction h with
  | nil => cases hst
  | cons ha h ih =>
    cases hst with
    | head => exact ⟨_, ha⟩
    | tail _ hst => exact ih hst

/-- The literals of a text that is read as assignments are closed. -/
theorem outside_of_parseAll {s : String} {l : List Assignment} (h : parseAll s = .ok l) :
    Outside isInExpression s.toList := by
  have hread := (parseAll_eq_ok_iff.1 h).2
  apply outside_of_splitStatements (q := .outside)
  intro p hp
  apply outside_of_trim
  by_cases hempty : trim p = []
  · rw [hempty]
    exact .nil
  · have hmem : trim p ∈ statements s := by
      refine List.mem_filter.2 ⟨List.mem_map_of_mem hp, ?_⟩
      simp [hempty]
    obtain ⟨a, ts, hassigns, -⟩ := exists_of_mem hread hmem
    exact hassigns.outside

/-- Akin texts have akin statements. -/
theorem forall₂_statements {s t : String} (h : Akin P s.toList t.toList) :
    List.Forall₂ (Akin P) (statements s) (statements t) := by
  have htrim : List.Forall₂ (fun a b => Akin P a b ∧ (a = [] ↔ b = []))
      ((splitStatements .outside s.toList).map trim)
      ((splitStatements .outside t.toList).map trim) := by
    refine List.rel_map (fun a b hab => ⟨hab.trim, ?_⟩) (forall₂_splitStatements h)
    rw [trim_eq_nil_iff, trim_eq_nil_iff, hab.isBlank_iff]
  refine (List.rel_filter (fun a b hab => ?_) htrim).imp fun a b hab => hab.1
  simp [hab.2]

/-- Statements that are related are read one by one. -/
theorem exists_forall₂ {R : List Char → List Char → Prop} {S : Assignment → Assignment → Prop}
    {l : List Assignment} (hread : List.Forall₂ IsRead ps l) (h : List.Forall₂ R ps qs)
    (hone : ∀ {p p' a}, R p p' → IsRead p a → ∃ a', IsRead p' a' ∧ S a a') :
    ∃ l', List.Forall₂ IsRead qs l' ∧ List.Forall₂ S l l' := by
  induction h generalizing l with
  | nil =>
    cases hread
    exact ⟨[], .nil, .nil⟩
  | cons hp h ih =>
    cases hread with
    | cons ha hread =>
      obtain ⟨a', ha', hs⟩ := hone hp ha
      obtain ⟨l', hl', hall⟩ := ih hread
      exact ⟨a' :: l', .cons ha' hl', .cons hs hall⟩

/-- A text that is akin to assignments is read as assignments, related as those of akin statements
are. -/
theorem exists_parseAll {S : Assignment → Assignment → Prop} {s t : String}
    {l : List Assignment} (hs : parseAll s = .ok l) (h : Akin P s.toList t.toList)
    (hone : ∀ {p p' a}, Akin P p p' → IsRead p a → ∃ a', IsRead p' a' ∧ S a a') :
    ∃ l', parseAll t = .ok l' ∧ List.Forall₂ S l l' := by
  obtain ⟨hne, hread⟩ := parseAll_eq_ok_iff.1 hs
  obtain ⟨l', hread', hall⟩ := exists_forall₂ hread (forall₂_statements h) hone
  refine ⟨l', parseAll_eq_ok_iff.2 ⟨?_, hread'⟩, hall⟩
  rintro rfl
  cases hall
  exact hne rfl

theorem parseAll_of_akin {s t : String} {l : List Assignment} (hs : parseAll s = .ok l)
    (h : Akin Eq s.toList t.toList) : parseAll t = .ok l := by
  obtain ⟨l', ht, hall⟩ := exists_parseAll (S := Eq) hs h fun hp ha => ⟨_, ha.akin hp, rfl⟩
  rw [List.forall₂_eq_eq_eq] at hall
  rw [hall]
  exact ht

theorem parseAll_append {s₁ s₂ : String} {l₁ l₂ : List Assignment} (h₁ : parseAll s₁ = .ok l₁)
    (h₂ : parseAll s₂ = .ok l₂) : parseAll (s₁ ++ ";" ++ s₂) = .ok (l₁ ++ l₂) := by
  obtain ⟨hne, hread₁⟩ := parseAll_eq_ok_iff.1 h₁
  have hread₂ := (parseAll_eq_ok_iff.1 h₂).2
  rw [parseAll_eq_ok_iff, statements_append (outside_of_parseAll h₁)]
  exact ⟨by simp [hne], List.rel_append hread₁ hread₂⟩

/-- Texts are the same up to what their string literals hold, and to the number of blanks where
there are some. -/
def SameOutside (s t : String) : Prop :=
  Akin (fun _ _ => True) s.toList t.toList

theorem exists_sameOutside {s t : String} {l : List Assignment} (hs : parseAll s = .ok l)
    (h : SameOutside s t) : ∃ m, parseAll t = .ok m ∧ m.map leftSide = l.map leftSide := by
  obtain ⟨m, ht, hall⟩ := exists_parseAll (S := fun a b => leftSide b = leftSide a) hs h
    exists_isRead
  refine ⟨m, ht, ?_⟩
  clear hs ht
  induction hall with
  | nil => rfl
  | cons hab hall ih => rw [List.map_cons, List.map_cons, hab, ih]

/-- Texts that are joined by a semicolon assign what they assign one after the other. What stands
in a string literal, semicolons, quotes and backslashes included, decides neither how many
statements there are nor what they assign to. -/
theorem parseAll_join {s₁ s₂ : String} {l₁ l₂ : List Assignment} (h₁ : parseAll s₁ = .ok l₁)
    (h₂ : parseAll s₂ = .ok l₂) :
    parseAll (s₁ ++ ";" ++ s₂) = .ok (l₁ ++ l₂) ∧
      ∀ t₁ t₂, SameOutside s₁ t₁ → SameOutside s₂ t₂ → ∃ m₁ m₂,
        parseAll t₁ = .ok m₁ ∧ parseAll t₂ = .ok m₂ ∧
        parseAll (t₁ ++ ";" ++ t₂) = .ok (m₁ ++ m₂) ∧
        m₁.map leftSide = l₁.map leftSide ∧ m₂.map leftSide = l₂.map leftSide := by
  refine ⟨parseAll_append h₁ h₂, fun t₁ t₂ hs₁ hs₂ => ?_⟩
  obtain ⟨m₁, ht₁, hleft₁⟩ := exists_sameOutside h₁ hs₁
  obtain ⟨m₂, ht₂, hleft₂⟩ := exists_sameOutside h₂ hs₂
  exact ⟨m₁, m₂, ht₁, ht₂, parseAll_append ht₁ ht₂, hleft₁, hleft₂⟩

/-- A literal with a semicolon, an equals sign and an escaped quote, in front of a second
assignment, and again with other texts in its place. -/
theorem parseAll_join_literal :
    parseAll "a = \"x;y=\\\"\"" = .ok [⟨"a", .set, .literal (.text "x;y=\"")⟩] ∧
    parseAll "b += a" = .ok [⟨"b", .add, .variable "a"⟩] ∧
    parseAll ("a = \"x;y=\\\"\"" ++ ";" ++ "b += a") =
      .ok [⟨"a", .set, .literal (.text "x;y=\"")⟩, ⟨"b", .add, .variable "a"⟩] ∧
    ∃ m, parseAll ("a  =\t\";c = ;\"" ++ ";" ++ "b += a") = .ok m ∧
      m.map leftSide = [("a", .set), ("b", .add)] := by
  have hheld : Literal "x;y=\\\"\"".toList "x;y=\"".toList :=
    .char (by decide) (by decide) <| .char (by decide) (by decide) <|
      .char (by decide) (by decide) <| .char (by decide) (by decide) <| .escape '"' .close
  have hother : Literal ";c = ;\"".toList ";c = ;".toList :=
    .char (by decide) (by decide) <| .char (by decide) (by decide) <|
      .char (by decide) (by decide) <| .char (by decide) (by decide) <|
      .char (by decide) (by decide) <| .char (by decide) (by decide) .close
  have h₁ : parseAll "a = \"x;y=\\\"\"" = .ok [⟨"a", .set, .literal (.text "x;y=\"")⟩] := by
    have hplain : plain? "a = \"x;y=\\\"\"".toList = some (['a'], " \"x;y=\\\"\"".toList) := rfl
    have hscan : Scans " \"x;y=\\\"\"".toList [.text "x;y=\""] :=
      .blank (by decide) (.token (.text hheld []) .nil)
    exact parseAll_eq_ok_iff.2 ⟨List.cons_ne_nil _ _, .cons ⟨_, .plain hplain hscan, rfl⟩ .nil⟩
  have h₂ : parseAll "b += a" = .ok [⟨"b", .add, .variable "a"⟩] := by
    have hname : Takes "b += a".toList (.name "b") " += a".toList := .name (by decide)
    have hsign : Takes (Sign.addSet.chars ++ " a".toList) (.sign .addSet) " a".toList := .sign rfl
    have hvalue : Takes "a".toList (.name "a") [] := .name (by decide)
    have hscan : Scans "b += a".toList [.name "b", .sign .addSet, .name "a"] :=
      .token hname <| .blank (by decide) <| .token hsign <| .blank (by decide) <| .token hvalue .nil
    exact parseAll_eq_ok_iff.2
      ⟨List.cons_ne_nil _ _, .cons ⟨_, .compound rfl hscan rfl, rfl⟩ .nil⟩
  have hsame₁ : SameOutside "a = \"x;y=\\\"\"" "a  =\t\";c = ;\"" := by
    have hrest : Akin (fun _ _ => True) _ _ :=
      .literal hheld hother trivial (.done isBlank_nil isBlank_nil)
    exact .char (by decide) <| @Akin.blanks _ ' ' ' ' [] [' '] _ _ (by decide) (by decide) <|
      .char (by decide) <| hrest.blank (by decide) (by decide)
  have hsame₂ : SameOutside "b += a" "b += a" :=
    (outside_of_parseAll h₂).akin.mono fun _ _ _ => trivial
  obtain ⟨hjoin, hall⟩ := parseAll_join h₁ h₂
  obtain ⟨m₁, m₂, -, -, hm, hleft₁, hleft₂⟩ := hall _ _ hsame₁ hsame₂
  refine ⟨h₁, h₂, hjoin, m₁ ++ m₂, hm, ?_⟩
  rw [List.map_append, hleft₁, hleft₂]
  rfl

end Playhead.Assignment
