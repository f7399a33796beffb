import Playhead.Proofs.Script.Words

/-!
Commands in brackets.

A command in brackets ends at the first `]` outside its quotes that no backslash keeps, and its
words are those of a command line. Main statement: a line that is one command in brackets is read as
the line with that command after `@`, but a print in brackets always waits where lines of text do.
-/

namespace Playhead.Script

open Text

/-- Texts that may stand in brackets: their quotes are closed, no `]` is outside quotes and without a
backslash, and each backslash keeps a character. -/
inductive Closed : Bool → List Char → Prop where
  | nil : Closed false []
  | escape {quoted : Bool} {cs : List Char} (c : Char) (h : Closed quoted cs) :
      Closed quoted ('\\' :: c :: cs)
  | quote {quoted : Bool} {cs : List Char} (h : Closed (!quoted) cs) : Closed quoted ('"' :: cs)
  | char {quoted : Bool} {c : Char} {cs : List Char} (hback : c ≠ '\\') (hquote : c ≠ '"')
      (hclose : c = ']' → quoted = true) (h : Closed quoted cs) : Closed quoted (c :: cs)

variable {quoted : Bool} {c : Char} {cs body rest blanks : List Char}

theorem inlineBody_cons (h : c ≠ '\\') (quoted : Bool) (cs : List Char) :
    inlineBody quoted (c :: cs) =
      if c = ']' && !quoted then some ([], cs)
      else (inlineBody (if c = '"' then !quoted else quoted) cs).map fun r => (c :: r.1, r.2) :=
  inlineBody.eq_3 _ _ _ fun _ _ hc _ => h hc

theorem Closed.inlineBody_eq (h : Closed quoted body) (rest : List Char) :
    inlineBody quoted (body ++ ']' :: rest) = some (body, rest) := by
  induction h with
  | nil => rfl
  | escape c h ih => rw [List.cons_append, List.cons_append, inlineBody, ih, Option.map_some]
  | quote h ih =>
    rw [List.cons_append, inlineBody_cons (by decide), if_neg (by simp), if_pos rfl, ih,
      Option.map_some]
  | char hback hquote hclose h ih =>
    rw [List.cons_append, inlineBody_cons hback, if_neg (by simpa using hclose), if_neg hquote, ih,
      Option.map_some]

theorem closed_of_inlineBody (h : inlineBody quoted cs = some (body, rest)) :
    cs = body ++ ']' :: rest ∧ Closed quoted body := by
  fun_induction inlineBody quoted cs generalizing body rest with
  | case1 => cases h
  | case2 quoted c cs ih =>
    obtain ⟨⟨body, rest⟩, htail, heq⟩ := Option.map_eq_some_iff.1 h
    cases heq
    obtain ⟨rfl, hclosed⟩ := ih htail
    exact ⟨rfl, .escape c hclosed⟩
  | case3 quoted c cs hback hclose =>
    cases h
    obtain ⟨hc, hquoted⟩ := Bool.and_eq_true_iff.1 hclose
    obtain rfl := of_decide_eq_true hc
    obtain rfl : quoted = false := by simpa using hquoted
    exact ⟨rfl, .nil⟩
  | case4 quoted c cs hback hclose ih =>
    obtain ⟨⟨body, rest⟩, htail, heq⟩ := Option.map_eq_some_iff.1 h
    cases heq
    obtain ⟨rfl, hclosed⟩ := ih htail
    refine ⟨rfl, ?_⟩
    by_cases hquote : c = '"'
    · subst hquote
      exact .quote hclosed
    · rw [if_neg hquote] at hclosed
      -- a backslash in front of nothing is followed by no bracket either
      have hc : c ≠ '\\' := fun hc => by
        cases body with
        | nil => exact hback _ _ hc rfl
        | cons d body => exact hback _ _ hc rfl
      exact .char hc hquote (by simpa using hclose) hclosed

/-- Where a command in brackets ends. -/
theorem inlineBody_eq_some_iff :
    inlineBody quoted cs = some (body, rest) ↔ cs = body ++ ']' :: rest ∧ Closed quoted body := by
  constructor
  · exact closed_of_inlineBody
  · rintro ⟨rfl, h⟩
    exact h.inlineBody_eq rest

/-! ### Words -/

theorem tokensBehind_isBlank (h : IsBlank blanks) (w : List Char) :
    tokensBehind false w blanks = pushToken w [] := by
  induction blanks generalizing w with
  | nil => rfl
  | cons b blanks ih =>
    obtain ⟨hb, hblanks⟩ := isBlank_cons.1 h
    rw [tokensBehind_blank hb, ih hblanks]
    rfl

theorem Closed.tokensBehind_append (h : Closed quoted cs) (hblanks : IsBlank blanks)
    (w : List Char) : tokensBehind quoted w (cs ++ blanks) = tokensBehind quoted w cs := by
  induction h generalizing w with
  | nil => exact tokensBehind_isBlank hblanks w
  | escape c h ih => exact ih (c :: '\\' :: w)
  | quote h ih =>
    rw [List.cons_append, tokensBehind_cons (by decide), tokensBehind_cons (by decide), if_pos rfl,
      if_pos rfl, ih]
  | char hback hquote hclose h ih =>
    rw [List.cons_append, tokensBehind_cons hback, tokensBehind_cons hback, if_neg hquote,
      if_neg hquote, ih, ih]

/-- Blanks at the end make no word, unless one is kept by a backslash. -/
theorem splitTokens_trimEnd (h : Closed false (trimEnd cs)) :
    splitTokens (trimEnd cs) = splitTokens cs := by
  obtain ⟨blanks, hblanks, hcs⟩ := exists_trimEnd cs
  have happend := h.tokensBehind_append hblanks []
  rw [← hcs] at happend
  exact happend.symm

/-! ### Lines -/

theorem segments_bracketed (h : Closed false body) :
    segments ('[' :: (body ++ [']'])) = [.text [], .command body, .text []] := by
  have hbody := h.inlineBody_eq []
  rw [segments, segmentsBehind.eq_4 _ _ _ (by simp) (by simp)]
  rw [if_pos rfl]
  split
  · rename_i heq
    rw [hbody] at heq
    cases heq
    simp [segmentsBehind]
  · rename_i heq
    rw [hbody] at heq
    cases heq

/-- A line that starts with a bracket names no author. -/
theorem splitAuthor_bracket (cs : List Char) : splitAuthor ('[' :: cs) = (none, '[' :: cs) := by
  unfold splitAuthor
  rw [splitColon.eq_2 _ _ (by simp)]
  cases splitColon cs with
  | none => rfl
  | some r => rfl

/-- A print that waits, whatever it says of itself; another command as it is. -/
def awaited (c : Command) : Command :=
  if c.name = printName then { c with params := c.params.insert "wait" (.bool true) } else c

theorem waitAtEnd_singleton (c : Command) : waitAtEnd [c] = [awaited c] := by
  unfold awaited
  show (if c.name = printName then _ else _) = _
  split <;> rfl

theorem readSegments_skip (registry : Registry) (author : Option String) (line count : Nat)
    (rest : List Segment) : readSegments registry author line count (.text [] :: rest) =
      readSegments registry author line count rest := by
  rw [readSegments]
  rfl

section

variable {registry : Registry} {h : Handler} {name : List Char} {params : List (List Char)}

theorem readCommand_eq (htokens : splitTokens body = name :: params)
    (hh : registry.get? (String.ofList name) = some h) (spot : SourceSpot) :
    readCommand registry spot body =
      (readParams h spot params).map fun r => (some r.1, r.2) := by
  unfold readCommand
  rw [htokens]
  simp only [hh]

theorem readSegments_bracketed (htokens : splitTokens body = name :: params)
    (hh : registry.get? (String.ofList name) = some h) (number : Nat) :
    readSegments registry none number 0 [.text [], .command body, .text []] =
      (readParams h ⟨number, 0⟩ params).map fun r => ([r.1], r.2) := by
  have hnil : ∀ count, readSegments registry none number count [.text []] = .ok ([], []) :=
    fun count => readSegments_skip registry none number count []
  rw [readSegments_skip, readSegments, readCommand_eq htokens hh]
  simp only [hnil]
  cases readParams h ⟨number, 0⟩ params with
  | error e => rfl
  | ok r =>
    show Except.ok ([r.1], r.2 ++ []) = Except.ok ([r.1], r.2)
    rw [List.append_nil]

theorem readLine_brackets (hbody : Closed false body)
    (htokens : splitTokens body = name :: params)
    (hh : registry.get? (String.ofList name) = some h) (wait : Bool) (number : Nat) :
    readLine registry wait number ('[' :: (body ++ [']'])) =
      (readParams h ⟨number, 0⟩ params).map fun r =>
        (.generic [if wait then awaited r.1 else r.1], r.2) := by
  have htrim : trim ('[' :: (body ++ [']'])) = '[' :: (body ++ [']']) := by
    rw [trim_cons (by decide), trimEnd_concat (by decide)]
  unfold readLine
  rw [htrim]
  show (readGeneric registry wait number ('[' :: (body ++ [']']))).map _ = _
  unfold readGeneric
  rw [splitAuthor_bracket]
  dsimp only
  rw [segments_bracketed hbody, readSegments_bracketed htokens hh]
  cases readParams h ⟨number, 0⟩ params with
  | error e => rfl
  | ok r =>
    cases wait with
    | false => rfl
    | true =>
      show Except.ok (ScriptLine.generic (waitAtEnd [r.1]), r.2) = _
      rw [waitAtEnd_singleton]
      rfl

/-- Blanks behind a command are cut off its line, even behind a backslash. -/
theorem readLine_at (hend : Closed false (trimEnd body))
    (htokens : splitTokens body = name :: params)
    (hh : registry.get? (String.ofList name) = some h) (wait : Bool) (number : Nat) :
    readLine registry wait number ('@' :: body) =
      (readParams h ⟨number, 0⟩ params).map fun r => (.command r.1, r.2) := by
  have hwords := (splitTokens_trimEnd hend).trans htokens
  unfold readLine
  rw [trim_cons (by decide)]
  show (readCommand registry ⟨number, 0⟩ (trimEnd body)).map _ = _
  rw [readCommand_eq hwords hh]
  cases readParams h ⟨number, 0⟩ params <;> rfl

/-- A line that is one command in brackets is read as the line with that command after `@`, except
that a print in brackets waits where lines of text do. -/
theorem readLine_bracketed (hbody : Closed false body)
    (htokens : splitTokens body = name :: params)
    (hh : registry.get? (String.ofList name) = some h) (wait : Bool) (number : Nat) :
    readLine registry wait number ('[' :: (body ++ [']'])) =
        ((readParams h ⟨number, 0⟩ params).map fun r =>
          (.generic [if wait then awaited r.1 else r.1], r.2)) ∧
      (Closed false (trimEnd body) → readLine registry wait number ('@' :: body) =
        (readParams h ⟨number, 0⟩ params).map fun r => (.command r.1, r.2)) :=
  ⟨readLine_brackets hbody htokens hh wait number,
    fun hend => readLine_at hend htokens hh wait number⟩

end

theorem closed_of_decide (h : inlineBody false (body ++ [']']) = some (body, [])) :
    Closed false body :=
  (inlineBody_eq_some_iff.1 h).2

theorem get?_builtin_print : Registry.builtin.get? "print" = some Builtin.print :=
  Builtin.distinct Builtin.print (by simp [Registry.builtin, Builtin.handlers])

/-- A print with a bracket in its quotes and a blank at its end. -/
def quotedPrint : List Char :=
  "print \"a ] \\\"\" author:Yuko ".toList

theorem readLine_bracketed_print :
    readLine .builtin true 2 ('[' :: (quotedPrint ++ [']'])) =
      .ok (.generic [⟨"print", .ofList [("author", .text "Yuko"), ("text", .text "a ] \""),
        ("wait", .bool true)], ⟨2, 0⟩, .none⟩], []) ∧
    readLine .builtin true 2 ('@' :: quotedPrint) =
      .ok (.command ⟨"print", .ofList [("author", .text "Yuko"), ("text", .text "a ] \"")],
        ⟨2, 0⟩, .none⟩, []) := by
  have hbody : Closed false quotedPrint := closed_of_decide (by decide)
  have hend : Closed false (trimEnd quotedPrint) := closed_of_decide (by decide)
  have htokens : splitTokens quotedPrint =
      "print".toList :: ["\"a ] \\\"\"".toList, "author:Yuko".toList] := by decide
  obtain ⟨hinline, hline⟩ := readLine_bracketed hbody htokens get?_builtin_print true 2
  rw [hinline, hline hend]
  exact ⟨rfl, rfl⟩

/-- A print in brackets waits even if it is written not to, and one after `@` does not. -/
theorem readLine_bracketed_noWait :
    readLine .builtin true 1 "[print Hi wait:false]".toList =
      .ok (.generic [⟨"print", .ofList [("text", .text "Hi"), ("wait", .bool true)], ⟨1, 0⟩,
        .none⟩], []) ∧
    readLine .builtin true 1 "@print Hi wait:false".toList =
      .ok (.command ⟨"print", .ofList [("text", .text "Hi"), ("wait", .bool false)], ⟨1, 0⟩,
        .none⟩, []) := by
  have hbody : Closed false "print Hi wait:false".toList := closed_of_decide (by decide)
  have hend : Closed false (trimEnd "print Hi wait:false".toList) := closed_of_decide (by decide)
  have htokens : splitTokens "print Hi wait:false".toList =
      "print".toList :: ["Hi".toList, "wait:false".toList] := by decide
  constructor
  · exact (readLine_brackets hbody htokens get?_builtin_print true 1).trans rfl
  · exact (readLine_at hend htokens get?_builtin_print true 1).trans rfl

end Playhead.Script
