import Playhead.Command.Builtin
import Playhead.Proofs.Expr.Statements
import Playhead.Proofs.Script.Registered
import Playhead.Script.Reader

/-!
Expressions on the lines of commands.

A line is cut at the blanks outside quotes, and values without a name are joined by single spaces
again. Outside its literals an expression has neither quotes nor backslashes nor colons, so the
words of its line keep its literals whole, and none of them is a named value. Main statement: a
command that takes an expression gets one that is read the same.
-/

namespace Playhead

namespace Token

open Text

variable {P : List Char → List Char → Prop} {b c : Char} {bs cs ds w : List Char}

theorem scan_cons_of_isBlank (h : isBlank c = true) (cs : List Char) :
    scan (c :: cs) = scan cs := by
  rw [scan, if_pos h]

/-- Any blanks may stand for the first one of a text. -/
theorem Akin.of_isBlank (h : Akin P (b :: cs) ds) (hb : isBlank b = true)
    (hbs : IsBlank (c :: bs)) : Akin P (c :: (bs ++ cs)) ds := by
  cases h with
  | done hcs hw =>
    exact .done (isBlank_append.2 ⟨hbs, (isBlank_cons.1 hcs).2⟩) hw
  | char hc h => exact absurd hc (by simp [not_isPlain_of_isBlank hb])
  | literal => exact absurd hb (by decide)
  | blanks hcs hw h =>
    rw [← List.append_assoc]
    exact .blanks (isBlank_append.2 ⟨hbs, (isBlank_cons.1 hcs).2⟩) hw h

/-- Characters of a word outside its literals. -/
def isInWord (c : Char) : Bool :=
  isInExpression c && !isBlank c

theorem isInExpression_of_isInWord (h : isInWord c = true) : isInExpression c = true :=
  (Bool.and_eq_true_iff.1 h).1

theorem isPlain_of_isInWord (h : isInWord c = true) : isPlain c = true := by
  simp only [isInWord, isInExpression, Bool.and_eq_true, Bool.not_eq_true', bne_iff_ne] at h
  exact isPlain_iff.2 ⟨h.2, h.1.1.1, h.1.1.2⟩

theorem Outside.akin_append (h : Outside isPlain w) (hcs : Akin Eq cs ds) :
    Akin Eq (w ++ cs) (w ++ ds) := by
  induction h with
  | nil => exact hcs
  | char hc h ih => exact .char hc ih
  | literal hl h ih =>
    rw [List.cons_append, List.cons_append, List.append_assoc, List.append_assoc]
    exact .literal hl hl rfl ih

end Token

namespace Script

open Text Token

variable {c : Char} {cs ds l held w : List Char} {tokens : List (List Char)}

/-! ### Words -/

theorem tokensBehind_cons (h : c ≠ '\\') (quoted : Bool) (w cs : List Char) :
    tokensBehind quoted w (c :: cs) =
      if c = '"' then tokensBehind (!quoted) (c :: w) cs
      else if isBlank c && !quoted then pushToken w (tokensBehind quoted [] cs)
      else tokensBehind quoted (c :: w) cs :=
  tokensBehind.eq_3 _ _ _ _ fun _ _ hc _ => h hc

theorem tokensBehind_quoted (h : Literal l held) (w cs : List Char) :
    tokensBehind true w (l ++ cs) = tokensBehind false (l.reverse ++ w) cs := by
  induction h generalizing w with
  | close => rfl
  | escape c h ih =>
    rw [List.cons_append, List.cons_append, tokensBehind, ih]
    simp
  | char hquote hback h ih =>
    rw [List.cons_append, tokensBehind_cons hback, if_neg hquote]
    simp [ih]

theorem tokensBehind_literal (h : Literal l held) (w cs : List Char) :
    tokensBehind false w ('"' :: (l ++ cs)) =
      tokensBehind false (('"' :: l).reverse ++ w) cs := by
  rw [tokensBehind_cons (by decide), if_pos rfl, Bool.not_false, tokensBehind_quoted h]
  simp

theorem tokensBehind_plain (h : isPlain c = true) (w cs : List Char) :
    tokensBehind false w (c :: cs) = tokensBehind false (c :: w) cs := by
  obtain ⟨hblank, hquote, hback⟩ := isPlain_iff.1 h
  rw [tokensBehind_cons hback, if_neg hquote, if_neg (by simp [hblank])]

theorem tokensBehind_blank (h : isBlank c = true) (w cs : List Char) :
    tokensBehind false w (c :: cs) = pushToken w (tokensBehind false [] cs) := by
  rw [tokensBehind_cons (ne_of_isBlank h (by decide)), if_neg (ne_of_isBlank h (by decide)),
    if_pos (by simp [h])]

theorem tokensBehind_word (h : Outside isPlain ds) (w cs : List Char) :
    tokensBehind false w (ds ++ cs) = tokensBehind false (ds.reverse ++ w) cs := by
  induction h generalizing w with
  | nil => rfl
  | char hc h ih =>
    rw [List.cons_append, tokensBehind_plain hc, ih]
    simp
  | literal hl h ih =>
    rw [List.cons_append, List.append_assoc, tokensBehind_literal hl, ih]
    simp

/-- A word and what a blank separates from it. -/
theorem splitTokens_word (h : Outside isPlain ds) (hds : ds ≠ []) (hc : isBlank c = true)
    (cs : List Char) : splitTokens (ds ++ c :: cs) = ds :: splitTokens cs := by
  rw [splitTokens, tokensBehind_word h, tokensBehind_blank hc, pushToken]
  simp [hds, splitTokens]

theorem splitTokens_single (h : Outside isPlain ds) (hds : ds ≠ []) : splitTokens ds = [ds] := by
  have hword := tokensBehind_word h [] []
  rw [List.append_nil] at hword
  rw [splitTokens, hword, tokensBehind, pushToken]
  simp [hds]

theorem joined_cons_cons (t u : List Char) (tokens : List (List Char)) :
    Reading.joined (t :: u :: tokens) = t ++ ' ' :: Reading.joined (u :: tokens) := by
  simp [Reading.joined, List.intercalate]

theorem joined_singleton (t : List Char) : Reading.joined [t] = t := by
  simp [Reading.joined]

/-- Words that are joined are cut apart again. -/
theorem splitTokens_joined (h : ∀ t ∈ tokens, Outside isPlain t ∧ t ≠ []) :
    splitTokens (Reading.joined tokens) = tokens := by
  induction tokens with
  | nil => rfl
  | cons t tokens ih =>
    obtain ⟨ht, hne⟩ := h t List.mem_cons_self
    cases tokens with
    | nil => rw [joined_singleton, splitTokens_single ht hne]
    | cons u tokens =>
      rw [joined_cons_cons, splitTokens_word ht hne (by decide),
        ih fun v hv => h v (List.mem_cons_of_mem t hv)]

/-- Tokens with a space in front of each. -/
def spread (tokens : List (List Char)) : List Char :=
  tokens.flatMap (' ' :: ·)

theorem spread_eq (h : tokens ≠ []) : spread tokens = ' ' :: Reading.joined tokens := by
  induction tokens with
  | nil => exact absurd rfl h
  | cons t tokens ih =>
    cases tokens with
    | nil => simp [spread, joined_singleton]
    | cons u tokens =>
      rw [joined_cons_cons, ← ih (List.cons_ne_nil u tokens)]
      rfl

theorem mem_pushToken {t : List Char} (h : t ∈ pushToken w tokens) :
    t = w.reverse ∨ t ∈ tokens := by
  unfold pushToken at h
  split at h
  · exact .inr h
  · simpa using h

/-- A blank behind a word makes one token of the word, if there is any. -/
theorem akin_pushToken (hw : Outside isPlain w.reverse) (hc : isBlank c = true)
    (h : Akin Eq (' ' :: cs) (spread tokens)) :
    Akin Eq (' ' :: (w.reverse ++ c :: cs)) (spread (pushToken w tokens)) := by
  have hspace : isBlank ' ' = true := by decide
  cases w with
  | nil =>
    have hblank : IsBlank (' ' :: [c]) := by simp [IsBlank, hspace, hc]
    exact h.of_isBlank hspace hblank
  | cons d w =>
    have htail : Akin Eq (c :: ([] ++ cs)) (spread tokens) :=
      h.of_isBlank hspace (by simp [IsBlank, hc])
    exact (hw.akin_append htail).blank hspace hspace

/-- A text with closed literals is cut into words, and spelled alike with single spaces between
them. -/
theorem tokensBehind_spec (h : Outside isInExpression cs) (hw : Outside isInWord w.reverse) :
    (∀ t ∈ tokensBehind false w cs, Outside isInWord t) ∧
      Akin Eq (' ' :: (w.reverse ++ cs)) (spread (tokensBehind false w cs)) := by
  -- characters and literals make the word in front longer; a blank finishes it, and the text
  -- behind starts with no word
  induction h generalizing w with
  | nil =>
    refine ⟨fun t ht => ?_, ?_⟩
    · obtain rfl | ht := mem_pushToken ht
      · exact hw
      · cases ht
    · cases w with
      | nil => exact .done (by decide) isBlank_nil
      | cons d w =>
        have hword := hw.mono fun c => isPlain_of_isInWord
        have hnil : Akin Eq [] [] := .done isBlank_nil isBlank_nil
        exact (hword.akin_append hnil).blank (by decide) (by decide)
  | @char c cs hc h ih =>
    cases hblank : isBlank c with
    | true =>
      obtain ⟨hwords, hakin⟩ := ih (w := []) .nil
      rw [tokensBehind_blank hblank]
      refine ⟨fun t ht => ?_,
        akin_pushToken (hw.mono fun c => isPlain_of_isInWord) hblank hakin⟩
      obtain rfl | ht := mem_pushToken ht
      · exact hw
      · exact hwords t ht
    | false =>
      have hword : isInWord c = true := by simp [isInWord, hc, hblank]
      have hplain := isPlain_of_isInWord hword
      have hnext : Outside isInWord (c :: w).reverse := by
        rw [List.reverse_cons]
        exact hw.append (.char hword .nil)
      have htail := ih hnext
      rw [tokensBehind_plain hplain]
      simpa using htail
  | @literal l held cs hl h ih =>
    have hnext : Outside isInWord (('"' :: l).reverse ++ w).reverse := by
      rw [List.reverse_append, List.reverse_reverse]
      have hlit : Outside isInWord ('"' :: (l ++ [])) := .literal hl .nil
      rw [List.append_nil] at hlit
      exact hw.append hlit
    have htail := ih hnext
    rw [tokensBehind_literal hl]
    simpa using htail

/-! ### Parameters -/

/-- The first colon of a text with closed literals stands in a literal. -/
theorem quote_mem_takeWhile (h : Outside isInExpression cs) :
    cs.dropWhile (· != ':') = [] ∨ '"' ∈ cs.takeWhile (· != ':') := by
  induction h with
  | nil => exact .inl rfl
  | @char c cs hc h ih =>
    have hcolon : (c != ':') = true := by
      simp only [isInExpression, Bool.and_eq_true] at hc
      exact hc.2
    rw [List.dropWhile_cons, List.takeWhile_cons, if_pos hcolon, if_pos hcolon]
    exact ih.imp_right (List.mem_cons_of_mem c)
  | literal => exact .inr (by simp)

theorem isIdentifier_eq_false (h : '"' ∈ cs) : isIdentifier cs = false := by
  cases cs with
  | nil => rfl
  | cons c cs =>
    obtain _ | ⟨_, h⟩ := h
    · rfl
    · rw [isIdentifier, Bool.and_eq_false_iff]
      exact .inr (List.all_eq_false.2 ⟨'"', h, by decide⟩)

theorem splitNamed_eq_none (h : Outside isInExpression cs) : splitNamed cs = none := by
  unfold splitNamed
  obtain hnil | hquote := quote_mem_takeWhile h
  · rw [hnil]
  · dsimp only
    split
    · rw [if_neg (by simp [isIdentifier_eq_false hquote])]
    · rfl

namespace Reading

variable {h : Handler} {r : Reading}

/-- What takes no flags takes every token as a value. -/
theorem take_eq_takeValue (hflag : ∀ name, isFlag h name = false) (r : Reading) (t : List Char) :
    take h r t = takeValue h r t := by
  unfold take
  split
  · rw [if_neg (by simp [hflag])]
  · rfl

theorem takeValue_nameless {t : List Char} (ht : splitNamed t = none) (hr : r.named = false) :
    takeValue h r t = { r with nameless := t :: r.nameless } := by
  unfold takeValue
  rw [ht]
  simp [hr]

theorem foldl_take (hflag : ∀ name, isFlag h name = false)
    (htokens : ∀ t ∈ tokens, splitNamed t = none) (hr : r.named = false) :
    tokens.foldl (take h) r = { r with nameless := tokens.reverse ++ r.nameless } := by
  induction tokens generalizing r with
  | nil => rfl
  | cons t tokens ih =>
    rw [List.foldl_cons, take_eq_takeValue hflag,
      takeValue_nameless (htokens t List.mem_cons_self) hr,
      ih (fun u hu => htokens u (List.mem_cons_of_mem t hu)) (by exact hr)]
    simp

end Reading

/-- Parameters that nothing is wrong with are read with no message. -/
theorem readParams_eq_ok {h : Handler} {r : Reading} {spot : SourceSpot} {c : Command}
    (hr : (tokens.foldl (Reading.take h) {}).close h = r) (hwarnings : r.warnings = [])
    (hc : ⟨h.name, r.params, spot, h.role⟩ = c) (hdiagnose : h.diagnose c = .ok [])
    (hspecs : ∀ s ∈ Reading.specs h, Reading.checkSpec h c s = none)
    (hcondition : Reading.checkCondition c = []) : readParams h spot tokens = .ok (c, []) := by
  unfold readParams
  rw [hr]
  simp only [hc, hdiagnose, hwarnings, List.filterMap_eq_nil_iff.2 hspecs, hcondition]
  rfl

/-- A command whose only parameter is an expression, with a warning where the expression is not
accepted. -/
structure TakesExpression {α : Type} (h : Handler) (param : String)
    (check : String → Except ExprError α) : Prop where
  params : h.params = [Builtin.required param .expression]
  diagnose : ∀ c, h.diagnose c = .ok (Builtin.warnExpression param check c)
  param_ne : param ≠ ParamSpec.condition.name

section

variable {α : Type} {h : Handler} {param : String} {check : String → Except ExprError α} {x : α}

theorem TakesExpression.isFlag_eq (hh : TakesExpression h param check) (name : String) :
    Reading.isFlag h name = false := by
  unfold Reading.isFlag Reading.spec?
  split
  · rename_i s hs
    have hmem := List.mem_of_find?_eq_some hs
    simp only [Reading.specs, hh.params, List.mem_append, List.mem_singleton] at hmem
    obtain rfl | rfl := hmem <;> rfl
  · rfl

/-- The command that a line with an expression makes. -/
def expressionCommand (h : Handler) (param : String) (spot : SourceSpot) (source : String) :
    Command :=
  ⟨h.name, .ofList [(param, .expression source)], spot, h.role⟩

theorem TakesExpression.close_eq (hh : TakesExpression h param check) {source : String}
    (hne : tokens ≠ []) (htokens : ∀ t ∈ tokens, splitNamed t = none)
    (hsource : ParamValue.ofSource (Reading.joined tokens) .expression = .expression source) :
    (tokens.foldl (Reading.take h) {}).close h =
      { params := .ofList [(param, .expression source)], nameless := tokens.reverse } := by
  rw [Reading.foldl_take hh.isFlag_eq htokens rfl, Reading.close]
  simp only [List.append_nil, List.isEmpty_reverse, List.reverse_reverse, hh.params]
  rw [if_neg (by simpa using hne)]
  show Reading.assign _ param (ParamValue.ofSource (Reading.joined tokens) .expression) = _
  rw [hsource]
  rfl

theorem TakesExpression.readParams_eq (hh : TakesExpression h param check) (spot : SourceSpot)
    {source : String} (hne : tokens ≠ []) (htokens : ∀ t ∈ tokens, splitNamed t = none)
    (hsource : ParamValue.ofSource (Reading.joined tokens) .expression = .expression source)
    (hcheck : check source = .ok x) :
    readParams h spot tokens = .ok (expressionCommand h param spot source, []) := by
  have hparam : (expressionCommand h param spot source).param param = .expression source := by
    simp [expressionCommand, Command.param, NameMap.ofList, NameMap.get?_insert]
  have hcondition : (expressionCommand h param spot source).param ParamSpec.condition.name =
      .unassigned := by
    simp [expressionCommand, Command.param, NameMap.ofList, NameMap.get?_insert,
      NameMap.get?_empty, hh.param_ne]
  have hdiagnose : h.diagnose (expressionCommand h param spot source) = .ok [] := by
    rw [hh.diagnose, Builtin.warnExpression, Command.expression, Command.optional, hparam]
    simp [hcheck]
  refine readParams_eq_ok (hh.close_eq hne htokens hsource) rfl rfl hdiagnose ?_ ?_
  · intro s hs
    rw [Reading.specs, hh.params] at hs
    simp only [List.mem_append, List.mem_singleton] at hs
    obtain rfl | rfl := hs
    · rw [Reading.checkSpec, Builtin.required, hparam]
    · rw [Reading.checkSpec, hcondition]
      rfl
  · rw [Reading.checkCondition, Command.condition, Command.expression, Command.optional, hcondition]

end

/-! ### Lines -/

/-- A line with a command is read as the command and what stands behind its name. -/
theorem readLine_command {registry : Registry} {h : Handler} {name body : List Char}
    (wait : Bool) (number : Nat) (hname : Outside isPlain name) (hne : name ≠ [])
    (hh : registry.get? (String.ofList name) = some h) (hbody : ¬ IsBlank body) :
    readLine registry wait number ('@' :: (name ++ ' ' :: body)) =
      (readParams h ⟨number, 0⟩ (splitTokens (trimEnd body))).map fun r => (.command r.1, r.2) := by
  have hspace : trimEnd (' ' :: body) = ' ' :: trimEnd body := by
    rw [← List.singleton_append, trimEnd_append, if_neg (mt trimEnd_eq_nil_iff.1 hbody)]
    rfl
  have htrim : trim ('@' :: (name ++ ' ' :: body)) = '@' :: (name ++ ' ' :: trimEnd body) := by
    rw [trim_cons (by decide), trimEnd_append, hspace, if_neg (List.cons_ne_nil _ _)]
  unfold readLine
  rw [htrim]
  show (readCommand registry ⟨number, 0⟩ (name ++ ' ' :: trimEnd body)).map _ = _
  unfold readCommand
  rw [splitTokens_word hname hne (by decide)]
  simp only [hh]
  cases readParams h ⟨number, 0⟩ (splitTokens (trimEnd body)) <;> rfl

/-- A property of texts that depends on how they are spelled outside literals only up to the number
of blanks, and not on the blanks in front. -/
structure BySpelling (Q : List Char → Prop) : Prop where
  outside : ∀ {cs}, Q cs → Outside isInExpression cs
  akin : ∀ {cs ds}, Q cs → Akin Eq cs ds → Q ds
  cons_iff : ∀ {c} cs, isBlank c = true → (Q (c :: cs) ↔ Q cs)
  not_nil : ¬ Q []

namespace BySpelling

variable {Q : List Char → Prop}

theorem append_iff (hQ : BySpelling Q) (hds : IsBlank ds) : Q (ds ++ cs) ↔ Q cs := by
  induction ds with
  | nil => rfl
  | cons d ds ih =>
    obtain ⟨hd, hds⟩ := isBlank_cons.1 hds
    rw [List.cons_append, hQ.cons_iff _ hd, ih hds]

theorem not_isBlank (hQ : BySpelling Q) (h : Q cs) : ¬ IsBlank cs := fun hblank =>
  hQ.not_nil ((hQ.append_iff hblank).1 (by rwa [List.append_nil]))

theorem trimEnd (hQ : BySpelling Q) (h : Q cs) : Q (Text.trimEnd cs) :=
  hQ.akin h (hQ.outside h).akin.trimEnd_right

theorem trim (hQ : BySpelling Q) (h : Q cs) : Q (Text.trim cs) := by
  have hblank : IsBlank (cs.takeWhile isBlank) := fun c hc => List.mem_takeWhile_imp hc
  refine hQ.trimEnd ((hQ.append_iff hblank).1 ?_)
  rwa [trimStart, List.takeWhile_append_dropWhile]

/-- The words of a text, joined again, have what the text has. -/
theorem joined (hQ : BySpelling Q) (h : Q cs) : splitTokens cs ≠ [] ∧
    (∀ t ∈ splitTokens cs, splitNamed t = none) ∧ Q (Reading.joined (splitTokens cs)) := by
  obtain ⟨hwords, hakin⟩ := tokensBehind_spec (w := []) (hQ.outside h) .nil
  have hspread : Q (spread (splitTokens cs)) := hQ.akin ((hQ.cons_iff cs (by decide)).2 h) hakin
  have hne : splitTokens cs ≠ [] := by
    intro hnil
    rw [hnil] at hspread
    exact hQ.not_nil hspread
  refine ⟨hne, fun t ht => ?_, ?_⟩
  · exact splitNamed_eq_none ((hwords t ht).mono fun c => isInExpression_of_isInWord)
  · rw [spread_eq hne] at hspread
    exact (hQ.cons_iff _ (by decide)).1 hspread

end BySpelling

theorem ofSource_expression (h : ¬ IsBlank cs) :
    ParamValue.ofSource cs .expression = .expression (String.ofList (trim cs)) := by
  unfold ParamValue.ofSource
  exact if_neg (by simpa [trim_eq_nil_iff] using h)

/-- A line with a command and a text that its check accepts gives the command a text that is
accepted as the same. -/
theorem TakesExpression.readLine_eq {α : Type} {registry : Registry} {h : Handler}
    {param : String} {check : String → Except ExprError α} {x : α} {name : List Char}
    (hh : TakesExpression h param check)
    (hQ : BySpelling fun cs => check (String.ofList cs) = .ok x) (hname : Outside isPlain name)
    (hne : name ≠ []) (hget : registry.get? (String.ofList name) = some h) (wait : Bool)
    (number : Nat) (hcs : check (String.ofList cs) = .ok x) :
    ∃ source, readLine registry wait number ('@' :: (name ++ ' ' :: cs)) =
        .ok (.command (expressionCommand h param ⟨number, 0⟩ source), []) ∧
      check source = .ok x := by
  obtain ⟨hne', htokens, hjoined⟩ := hQ.joined (hQ.trimEnd hcs)
  have hsource := ofSource_expression (hQ.not_isBlank hjoined)
  have htrim := hQ.trim hjoined
  refine ⟨_, ?_, htrim⟩
  rw [readLine_command wait number hname hne hget (hQ.not_isBlank hcs),
    hh.readParams_eq ⟨number, 0⟩ hne' htokens hsource htrim]
  rfl

theorem bySpelling_expr (e : Expr) :
    BySpelling fun cs => Expr.parse (String.ofList cs) = .ok e := by
  simp only [Expr.parse_eq_ok_iff, String.toList_ofList]
  refine ⟨?_, ?_, ?_, ?_⟩
  · rintro cs ⟨ts, hts, -⟩
    exact hts.outside
  · rintro cs ds ⟨ts, hts, he⟩ hakin
    obtain ⟨us, hus, hsame⟩ := hakin.scans hts
    exact ⟨us, hus, eq_of_sameBut hsame ▸ he⟩
  · intro c cs hc
    simp only [← scan_eq_ok_iff, scan_cons_of_isBlank hc]
  · rintro ⟨ts, hts, he⟩
    have hscan := scan_eq_ok_iff.2 hts
    rw [scan] at hscan
    cases hscan
    cases he

theorem statements_cons (h : isBlank c = true) (cs : List Char) :
    Assignment.statements (String.ofList (c :: cs)) = Assignment.statements (String.ofList cs) := by
  obtain ⟨p, ps, hps⟩ := Assignment.exists_splitStatements .outside cs
  have hblank : IsBlank [c] := by simp [IsBlank, h]
  have htrim : trim (c :: p) = trim p := trim_append_left hblank p
  unfold Assignment.statements
  rw [String.toList_ofList, String.toList_ofList, Assignment.splitStatements_blank h, hps]
  simp only [Assignment.consFirst, List.map_cons, htrim]

theorem bySpelling_assignments (l : List Assignment) :
    BySpelling fun cs => Assignment.parseAll (String.ofList cs) = .ok l where
  outside h := by simpa using Assignment.outside_of_parseAll h
  akin h hakin := Assignment.parseAll_of_akin h (by simpa using hakin)
  cons_iff cs hc := by
    simp only [Assignment.parseAll_eq_ok_iff, statements_cons hc]
  not_nil h := by
    obtain ⟨hne, hread⟩ := Assignment.parseAll_eq_ok_iff.1 h
    cases hread
    exact hne rfl

theorem takesExpression_conditional (name : String) (role : BlockRole) :
    TakesExpression (Builtin.conditional name role) "condition" Expr.parse where
  params := rfl
  diagnose _ := rfl
  param_ne := by decide

theorem takesExpression_set : TakesExpression Builtin.set "expression" Assignment.parseAll where
  params := rfl
  diagnose _ := rfl
  param_ne := by decide

/-- What is read as an expression by itself is read as the same behind `@if`, and assignments are
behind `@set`, with no message about the line. -/
theorem readLine_expressions {registry : Registry}
    (hif : registry.get? "if" = some Builtin.ifBlock)
    (hset : registry.get? "set" = some Builtin.set) (wait : Bool) (number : Nat) :
    (∀ source e, Expr.parse source = .ok e → ∃ condition,
      readLine registry wait number ("@if " ++ source).toList =
        .ok (.command ⟨"if", .ofList [("condition", .expression condition)], ⟨number, 0⟩, .if⟩,
          []) ∧
      Expr.parse condition = Expr.parse source) ∧
    ∀ source l, Assignment.parseAll source = .ok l → ∃ expression,
      readLine registry wait number ("@set " ++ source).toList =
        .ok (.command ⟨"set", .ofList [("expression", .expression expression)], ⟨number, 0⟩, .none⟩,
          []) ∧
      Assignment.parseAll expression = Assignment.parseAll source := by
  constructor
  · intro source e hsource
    rw [hsource, String.toList_append]
    have hname : Outside isPlain ['i', 'f'] := outside_of_all (by decide)
    exact (takesExpression_conditional "if" .if).readLine_eq (bySpelling_expr e) hname (by decide)
      hif wait number (by simpa using hsource)
  · intro source l hsource
    rw [hsource, String.toList_append]
    have hname : Outside isPlain ['s', 'e', 't'] := outside_of_all (by decide)
    exact takesExpression_set.readLine_eq (bySpelling_assignments l) hname (by decide) hset wait
      number (by simpa using hsource)

/-- A negation, blanks beside signs and a literal with blanks, a colon and an escaped quote. -/
theorem readLine_expressions_spaced :
    Expr.parse "!a ==  \"b  \\\"c: \"" =
      .ok (.binary .eq (.not (.variable "a")) (.literal (.text "b  \"c: "))) ∧
    (∃ condition, readLine .builtin true 3 ("@if " ++ "!a ==  \"b  \\\"c: \"").toList =
        .ok (.command ⟨"if", .ofList [("condition", .expression condition)], ⟨3, 0⟩, .if⟩, []) ∧
      Expr.parse condition = Expr.parse "!a ==  \"b  \\\"c: \"") ∧
    ∃ expression, readLine .builtin true 3 ("@set " ++ "a  = !b ;").toList =
        .ok (.command ⟨"set", .ofList [("expression", .expression expression)], ⟨3, 0⟩, .none⟩,
          []) ∧
      Assignment.parseAll expression = Assignment.parseAll "a  = !b ;" := by
  have hif : Registry.builtin.get? "if" = some Builtin.ifBlock :=
    Builtin.distinct Builtin.ifBlock (by simp [Registry.builtin, Builtin.handlers])
  have hset : Registry.builtin.get? "set" = some Builtin.set :=
    Builtin.distinct Builtin.set (by simp [Registry.builtin, Builtin.handlers])
  have hnot : ∀ cs, sign? ('!' :: cs) = some .not → Takes ('!' :: cs) (.sign .not) cs :=
    fun cs h => .sign (s := .not) h
  have hparse : Expr.parse "!a ==  \"b  \\\"c: \"" =
      .ok (.binary .eq (.not (.variable "a")) (.literal (.text "b  \"c: "))) := by
    have hheld : Literal "b  \\\"c: \"".toList "b  \"c: ".toList :=
      .char (by decide) (by decide) <| .char (by decide) (by decide) <|
        .char (by decide) (by decide) <| .escape '"' <| .char (by decide) (by decide) <|
        .char (by decide) (by decide) <| .char (by decide) (by decide) .close
    have hname : Takes "a ==  \"b  \\\"c: \"".toList (.name "a") " ==  \"b  \\\"c: \"".toList :=
      .name (by decide)
    have hsign : Takes (Sign.eq.chars ++ "  \"b  \\\"c: \"".toList) (.sign .eq)
        "  \"b  \\\"c: \"".toList := .sign rfl
    have hscan : Scans "!a ==  \"b  \\\"c: \"".toList
        [.sign .not, .name "a", .sign .eq, .text "b  \"c: "] :=
      .token (hnot _ rfl) <| .token hname <| .blank (by decide) <| .token hsign <|
        .blank (by decide) <| .blank (by decide) <| .token (.text hheld []) .nil
    exact Expr.parse_eq_ok_iff.2 ⟨_, hscan, rfl⟩
  have hparseAll : Assignment.parseAll "a  = !b ;" =
      .ok [⟨"a", .set, .not (.variable "b")⟩] := by
    have hplain : Assignment.plain? "a  = !b".toList = some (['a'], " !b".toList) := rfl
    have hvalue : Takes "b".toList (.name "b") [] := .name (by decide)
    have hscan : Scans " !b".toList [.sign .not, .name "b"] :=
      .blank (by decide) <| .token (hnot _ rfl) <| .token hvalue .nil
    exact Assignment.parseAll_eq_ok_iff.2
      ⟨List.cons_ne_nil _ _, .cons ⟨_, .plain hplain hscan, rfl⟩ .nil⟩
  obtain ⟨hconditions, hexpressions⟩ := readLine_expressions hif hset true 3
  exact ⟨hparse, hconditions _ _ hparse, hexpressions _ _ hparseAll⟩

end Script

end Playhead
