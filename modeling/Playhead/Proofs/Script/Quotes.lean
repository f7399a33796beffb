import Playhead.Proofs.Script.Words

/-!
Texts in quotes.

A text in quotes is a literal. What cuts a line or a list passes over a literal as a whole, and a
value takes from it what it holds. Main statement: every text can be written as a parameter of a
command and as an item of a list, and any that ends in no blank as a line of text, so that it is
read back as it is.
-/

namespace Playhead

open Text Token

variable {c : Char} {cs l held : List Char}

namespace ParamValue

/-- A character as it is written between quotes. -/
def escaped (c : Char) : List Char :=
  if c = '\\' ∨ c = '"' then ['\\', c] else if c = '\n' then ['\\', 'n'] else [c]

/-- A text in quotes. -/
def quote (s : String) : List Char :=
  '"' :: (s.toList.flatMap escaped ++ ['"'])

theorem literal_escaped (cs : List Char) : Literal (cs.flatMap escaped ++ ['"']) cs := by
  induction cs with
  | nil => exact .close
  | cons c cs ih =>
    rw [List.flatMap_cons, List.append_assoc, escaped]
    split
    · rename_i hc
      have hn : c ≠ 'n' := by
        rintro rfl
        exact absurd hc (by decide)
      have hliteral := Literal.escape c ih
      rwa [if_neg hn] at hliteral
    · rename_i hc
      split
      · rename_i hnewline
        rw [hnewline]
        exact .escape 'n' ih
      · exact .char (fun h => hc (.inr h)) (fun h => hc (.inl h)) ih

theorem newline_notMem_quote (s : String) : '\n' ∉ quote s := by
  have hescaped : ∀ c, '\n' ∉ escaped c := by
    intro c
    unfold escaped
    split
    · rename_i hc
      rintro (_ | ⟨_, _ | ⟨_, h⟩⟩)
      · exact absurd hc (by decide)
      · cases h
    · split
      · decide
      · rename_i hc
        simpa using Ne.symm hc
  simp [quote, hescaped]

theorem outside_quote (s : String) : Outside isInWord (quote s) := by
  have hquote : Outside isInWord ('"' :: (s.toList.flatMap escaped ++ ['"'] ++ [])) :=
    .literal (literal_escaped _) .nil
  rwa [List.append_nil] at hquote

theorem unescape_literal (h : Literal l held) :
    ∃ body, l = body ++ ['"'] ∧ unescape body = held := by
  induction h with
  | close => exact ⟨[], rfl, rfl⟩
  | escape c h ih =>
    obtain ⟨body, rfl, rfl⟩ := ih
    exact ⟨'\\' :: c :: body, rfl, rfl⟩
  | @char c l held hquote hback h ih =>
    obtain ⟨body, rfl, rfl⟩ := ih
    refine ⟨c :: body, rfl, ?_⟩
    rw [unescape.eq_2]
    rintro _ _ rfl
    exact absurd rfl hback

theorem trim_literal (h : Literal l held) : trim ('"' :: l) = '"' :: l := by
  unfold trim
  rw [trimStart_cons (by decide), h.trimEnd_eq]

theorem unquoteChars_literal (h : Literal l held) : unquoteChars ('"' :: l) = held := by
  obtain ⟨body, rfl, hbody⟩ := unescape_literal h
  unfold unquoteChars
  rw [trim_literal h, quotedBody?, List.getLast?_concat, if_pos rfl, List.dropLast_concat]
  exact hbody

theorem unquoteChars_quote (s : String) : unquoteChars (quote s) = s.toList :=
  unquoteChars_literal (literal_escaped _)

theorem trim_quote (s : String) : trim (quote s) = quote s :=
  trim_literal (literal_escaped _)

/-! ### Lists -/

/-- Adds characters in front of the first item. -/
theorem foldr_consFirst (cs p : List Char) (ps : List (List Char)) :
    cs.foldr splitItems.consFirst (p :: ps) = (cs ++ p) :: ps := by
  induction cs with
  | nil => rfl
  | cons c cs ih =>
    rw [List.foldr_cons, ih]
    rfl

theorem splitItems_cons (h : c ≠ '\\') (quoted : Bool) (cs : List Char) :
    splitItems quoted (c :: cs) =
      if c = ',' && !quoted then [] :: splitItems quoted cs
      else splitItems.consFirst c (splitItems (if c = '"' then !quoted else quoted) cs) :=
  splitItems.eq_3 _ _ _ fun _ _ hc _ => h hc

theorem splitItems_quoted (h : Literal l held) (cs : List Char) :
    splitItems true (l ++ cs) = l.foldr splitItems.consFirst (splitItems false cs) := by
  induction h with
  | close => rfl
  | escape c h ih =>
    rw [List.cons_append, List.cons_append, splitItems, ih]
    rfl
  | char hquote hback h ih =>
    rw [List.cons_append, splitItems_cons hback, if_neg (by simp), if_neg hquote, ih]
    rfl

theorem splitItems_quote (s : String) (cs : List Char) :
    splitItems false (quote s ++ cs) =
      (quote s).foldr splitItems.consFirst (splitItems false cs) := by
  rw [quote, List.cons_append, splitItems_cons (by decide), if_neg (by decide), if_pos rfl,
    Bool.not_false, splitItems_quoted (literal_escaped _)]
  rfl

/-- Texts in quotes with commas between them are the items. -/
theorem splitItems_quotes {texts : List String} (h : texts ≠ []) :
    splitItems false ([','].intercalate (texts.map quote)) = texts.map quote := by
  induction texts with
  | nil => exact absurd rfl h
  | cons s texts ih =>
    cases texts with
    | nil =>
      have hone := splitItems_quote s []
      rw [splitItems, foldr_consFirst, List.append_nil] at hone
      simpa [List.intercalate] using hone
    | cons t texts =>
      have hjoin : [','].intercalate ((s :: t :: texts).map quote) =
          quote s ++ ',' :: [','].intercalate ((t :: texts).map quote) := by
        simp [List.intercalate]
      rw [hjoin, splitItems_quote, splitItems_cons (by decide), if_pos (by decide),
        ih (List.cons_ne_nil t texts), foldr_consFirst, List.append_nil]
      rfl

theorem splitList_quotes (texts : List String) :
    splitList ([','].intercalate (texts.map quote)) = texts.map quote := by
  cases texts with
  | nil => rfl
  | cons s texts =>
    have htrim : ((s :: texts).map quote).map trim = (s :: texts).map quote := by
      rw [List.map_map]
      exact List.map_congr_left fun t _ => trim_quote t
    unfold splitList
    rw [splitItems_quotes (List.cons_ne_nil s texts), htrim]
    rfl

theorem ofSource_quotes (texts : List String) :
    ofSource ([','].intercalate (texts.map quote)) .textList = .list (texts.map .text) := by
  unfold ofSource
  simp [splitList_quotes, unquoteChars_quote, Function.comp_def]

theorem ofSource_quote (s : String) : ofSource (quote s) .text = .text s := by
  unfold ofSource
  simp [unquoteChars_quote]

end ParamValue

namespace Script

open ParamValue

/-! ### Lines of commands -/

theorem asFlag_quote (h : cs.head? ≠ some '!') (s : String) : asFlag (cs ++ quote s) = none := by
  have hlast : (cs ++ quote s).getLast? = some '"' := by
    rw [quote, ← List.cons_append, ← List.append_assoc, List.getLast?_concat]
  unfold asFlag
  rw [hlast, if_neg (by decide)]
  cases cs with
  | nil => rfl
  | cons c cs =>
    have hc : c ≠ '!' := fun hc => h (congrArg some hc)
    rw [List.cons_append]
    split
    · rename_i heq
      exact absurd (List.cons.inj heq).1 hc
    · rfl

theorem take_quote {h : Handler} {r : Reading} (hr : r.named = false) (s : String) :
    Reading.take h r (quote s) = { r with nameless := quote s :: r.nameless } := by
  have hflag : asFlag ([] ++ quote s) = none := asFlag_quote (by decide) s
  have hnamed : splitNamed (quote s) = none :=
    splitNamed_eq_none ((outside_quote s).mono fun c => isInExpression_of_isInWord)
  rw [List.nil_append] at hflag
  rw [Reading.take, hflag]
  exact Reading.takeValue_nameless hnamed hr

theorem take_author (r : Reading) (a : String) :
    Reading.take Builtin.print r ("author:".toList ++ quote a) =
      { r with params := r.params.insert "author" (.text a), named := true } := by
  have hflag : asFlag ("author:".toList ++ quote a) = none := asFlag_quote (by decide) a
  have hnamed : splitNamed ("author:".toList ++ quote a) = some ("author", quote a) := rfl
  have hspec : Reading.spec? Builtin.print "author" = some (Builtin.optional "author" .text) := by
    decide
  rw [Reading.take, hflag]
  simp only [Reading.takeValue, hnamed, hspec, Builtin.optional, ofSource_quote, Reading.assign]

/-- The parameters of a text and of its author, if it has one. -/
def printParams (s : String) (author : Option String) : NameMap ParamValue :=
  .ofList ((author.map fun a => ("author", .text a)).toList ++ [("text", .text s)])

/-- The tokens that a text and its author are written as. -/
def printTokens (s : String) (author : Option String) : List (List Char) :=
  quote s :: (author.map fun a => "author:".toList ++ quote a).toList

theorem close_printTokens (s : String) (author : Option String) :
    ((printTokens s author).foldl (Reading.take Builtin.print) {}).close Builtin.print =
      { params := printParams s author, nameless := [quote s], named := author.isSome } := by
  have hassign : ∀ r : Reading, r.nameless = [quote s] →
      r.close Builtin.print = r.assign "text" (.text s) := by
    intro r hr
    rw [Reading.close, hr]
    show r.assign "text" (ofSource (Reading.joined [quote s]) .text) = _
    rw [joined_singleton, ofSource_quote]
  cases author with
  | none =>
    rw [printTokens, List.foldl_cons, take_quote rfl]
    exact hassign _ rfl
  | some a =>
    rw [printTokens, List.foldl_cons, take_quote rfl]
    show (Reading.take Builtin.print _ ("author:".toList ++ quote a)).close _ = _
    rw [take_author]
    exact hassign _ rfl

theorem get?_printParams (s : String) (author : Option String) (name : String) :
    (printParams s author).get? name =
      if "text" = name then some (.text s)
      else if "author" = name then author.map .text else none := by
  cases author <;> simp [printParams, NameMap.ofList, NameMap.get?_insert, NameMap.get?_empty]

theorem readParams_print (s : String) (author : Option String) (spot : SourceSpot) :
    readParams Builtin.print spot (printTokens s author) =
      .ok (⟨"print", printParams s author, spot, .none⟩, []) := by
  refine readParams_eq_ok (close_printTokens s author) rfl rfl rfl ?_ ?_
  · have hspecs : Reading.specs Builtin.print = [Builtin.required "text" .text,
        Builtin.optional "author" .text, Builtin.optional "wait" .bool, .condition] := rfl
    intro spec hspec
    rw [hspecs] at hspec
    simp only [List.mem_cons, List.not_mem_nil, or_false] at hspec
    obtain rfl | rfl | rfl | rfl := hspec <;> cases author <;>
      simp [Reading.checkSpec, Command.param, get?_printParams, Builtin.required, Builtin.optional,
        ParamSpec.condition]
  · simp [Reading.checkCondition, Command.condition, Command.expression, Command.optional,
      Command.param, get?_printParams, ParamSpec.condition]

theorem splitTokens_printTokens (s : String) (author : Option String) :
    splitTokens (Reading.joined (printTokens s author)) = printTokens s author := by
  have hquote : ∀ s, Outside isPlain (quote s) := fun s =>
    (outside_quote s).mono fun c => isPlain_of_isInWord
  apply splitTokens_joined
  rintro t (_ | ⟨_, ht⟩)
  · exact ⟨hquote s, List.cons_ne_nil _ _⟩
  · cases author with
    | none => cases ht
    | some a =>
      rw [List.mem_singleton.1 ht]
      have hname : Outside isPlain "author:".toList := outside_of_all (by decide)
      exact ⟨hname.append (hquote a), List.append_ne_nil_of_left_ne_nil (by decide) _⟩

theorem trimEnd_quote (cs : List Char) (s : String) : trimEnd (cs ++ quote s) = cs ++ quote s := by
  rw [quote, ← List.cons_append, ← List.append_assoc, trimEnd_concat (by decide)]

theorem joined_printTokens_none (s : String) :
    Reading.joined (printTokens s none) = quote s :=
  joined_singleton _

theorem joined_printTokens_some (s a : String) : Reading.joined (printTokens s (some a)) =
    quote s ++ (" author:".toList ++ quote a) := by
  show Reading.joined [quote s, "author:".toList ++ quote a] = _
  rw [joined_cons_cons, joined_singleton]
  rfl

theorem exists_joined_printTokens (s : String) (author : Option String) :
    ∃ cs t, Reading.joined (printTokens s author) = cs ++ quote t := by
  cases author with
  | none => exact ⟨[], s, joined_printTokens_none s⟩
  | some a =>
    refine ⟨quote s ++ " author:".toList, a, ?_⟩
    rw [joined_printTokens_some, List.append_assoc]

theorem readLine_print {registry : Registry} (hprint : registry.get? "print" = some Builtin.print)
    (wait : Bool) (number : Nat) (s : String) (author : Option String) :
    readLine registry wait number ("@print ".toList ++ Reading.joined (printTokens s author)) =
      .ok (.command ⟨"print", printParams s author, ⟨number, 0⟩, .none⟩, []) := by
  obtain ⟨cs, t, hjoined⟩ := exists_joined_printTokens s author
  have htrim : trimEnd (Reading.joined (printTokens s author)) =
      Reading.joined (printTokens s author) := by rw [hjoined, trimEnd_quote]
  have hblank : ¬ IsBlank (Reading.joined (printTokens s author)) := by
    intro h
    exact absurd (h '"' (by simp [hjoined, quote])) (by decide)
  have hname : Outside isPlain "print".toList := outside_of_all (by decide)
  have hline := readLine_command wait number hname (by decide) hprint hblank
  rw [htrim, splitTokens_printTokens, readParams_print] at hline
  exact hline

/-! ### Lines of text -/

/-- A text with a backslash in front of each character. -/
def guarded (cs : List Char) : List Char :=
  cs.flatMap fun c => ['\\', c]

theorem guarded_cons (c : Char) (cs : List Char) :
    guarded (c :: cs) = '\\' :: c :: guarded cs := rfl

theorem splitColon_cons (h : c ≠ ':' ∨ cs.head? ≠ some ' ') :
    splitColon (c :: cs) = (splitColon cs).map fun r => (c :: r.1, r.2) := by
  rw [splitColon.eq_2]
  rintro rest rfl rfl
  simp at h

/-- Between a colon and a space of the text stands a backslash. -/
theorem splitColon_guarded (cs : List Char) : splitColon (guarded cs) = none := by
  induction cs with
  | nil => rfl
  | cons c cs ih =>
    have hhead : (guarded cs).head? ≠ some ' ' := by
      cases cs <;> simp [guarded]
    rw [guarded_cons, splitColon_cons (.inl (by decide)), splitColon_cons (.inr hhead), ih]
    rfl

theorem segmentsBehind_guarded (text cs : List Char) :
    segmentsBehind text (guarded cs) = [.text (text.reverse ++ cs)] := by
  induction cs generalizing text with
  | nil => simp [guarded, segmentsBehind]
  | cons c cs ih => simp [guarded_cons, segmentsBehind, ih]

theorem trim_guarded (h : cs.getLast? = some c) (hc : isBlank c = false) :
    trim (guarded cs) = guarded cs := by
  have hstart : trimStart (guarded cs) = guarded cs := by
    cases cs with
    | nil => rfl
    | cons d cs => exact trimStart_cons (by decide) _
  obtain ⟨init, rfl⟩ := List.getLast?_eq_some_iff.1 h
  have hlast : guarded (init ++ [c]) = (guarded init ++ ['\\']) ++ [c] := by simp [guarded]
  rw [trim, hstart, hlast, trimEnd_concat hc]

theorem readSegments_text (registry : Registry) (number : Nat) (h : ¬ IsBlank cs) :
    readSegments registry none number 0 [.text cs] =
      .ok ([printCommand none ⟨number, 0⟩ cs], []) := by
  have hne : (trim cs).isEmpty = false := by simpa [trim_eq_nil_iff] using h
  rw [readSegments, hne]
  rfl

/-- A text by itself waits where lines do. -/
theorem waitAtEnd_text (spot : SourceSpot) (cs : List Char) :
    waitAtEnd [printCommand none spot cs] =
      [⟨"print", .ofList [("text", .text (String.ofList cs)), ("wait", .bool true)], spot,
        .none⟩] := by
  have hwait : (printCommand none spot cs).params.insert "wait" (.bool true) =
      .ofList [("text", .text (String.ofList cs)), ("wait", .bool true)] := by
    apply NameMap.ext_get?
    intro key
    simp only [printCommand, NameMap.ofList, List.foldl_cons, List.foldl_nil,
      Option.map_none, Option.toList_none, List.append_nil, NameMap.get?_insert]
    split <;> rfl
  show [{ printCommand none spot cs with
    params := (printCommand none spot cs).params.insert "wait" (.bool true) }] = _
  rw [hwait]
  rfl

theorem readGeneric_guarded (registry : Registry) (wait : Bool) (number : Nat)
    (h : ¬ IsBlank cs) :
    readGeneric registry wait number (guarded cs) =
      .ok ([⟨"print", .ofList [("text", .text (String.ofList cs)), ("wait", .bool wait)],
        ⟨number, 0⟩, .none⟩], []) := by
  have hauthor : splitAuthor (guarded cs) = (none, guarded cs) := by
    rw [splitAuthor, splitColon_guarded]
  have hsegments : segments (guarded cs) = [.text cs] := segmentsBehind_guarded [] cs
  unfold readGeneric
  rw [hauthor]
  dsimp only
  rw [hsegments, readSegments_text registry number h]
  cases wait with
  | false => rfl
  | true => rw [← waitAtEnd_text]; rfl

theorem readLine_guarded (registry : Registry) (wait : Bool) (number : Nat)
    (h : cs.getLast? = some c) (hc : isBlank c = false) :
    readLine registry wait number (guarded cs) =
      .ok (.generic [⟨"print", .ofList [("text", .text (String.ofList cs)), ("wait", .bool wait)],
        ⟨number, 0⟩, .none⟩], []) := by
  have hblank : ¬ IsBlank cs := fun hcs =>
    absurd (hcs c (List.mem_of_getLast? h)) (by simp [hc])
  unfold readLine
  rw [trim_guarded h hc]
  cases cs with
  | nil => exact absurd isBlank_nil hblank
  | cons d cs =>
    show (readGeneric registry wait number (guarded (d :: cs))).map _ = _
    rw [readGeneric_guarded registry wait number hblank]
    rfl

/-- Every text is read back as the text of a print command, as its author, and as an item of a
list of texts. It may also stand in a line of text, behind a backslash in front of each character,
if it does not end in a blank. -/
theorem texts_readBack {registry : Registry}
    (hprint : registry.get? "print" = some Builtin.print) (wait : Bool) (number : Nat) :
    (∀ s, '\n' ∉ quote s) ∧
    (∀ s, readLine registry wait number ("@print ".toList ++ quote s) =
      .ok (.command ⟨"print", .ofList [("text", .text s)], ⟨number, 0⟩, .none⟩, [])) ∧
    (∀ s a, readLine registry wait number
        ("@print ".toList ++ quote s ++ " author:".toList ++ quote a) =
      .ok (.command ⟨"print", .ofList [("author", .text a), ("text", .text s)], ⟨number, 0⟩,
        .none⟩, [])) ∧
    (∀ texts : List String, ofSource ([','].intercalate (texts.map quote)) .textList =
      .list (texts.map .text)) ∧
    ∀ (t : String) (c : Char), t.toList.getLast? = some c → isBlank c = false →
      readLine registry wait number (t.toList.flatMap fun c => ['\\', c]) =
        .ok (.generic [⟨"print", .ofList [("text", .text t), ("wait", .bool wait)],
          ⟨number, 0⟩, .none⟩], []) := by
  refine ⟨newline_notMem_quote, fun s => ?_, fun s a => ?_, ofSource_quotes,
    fun t c h hc => ?_⟩
  · have hline := readLine_print hprint wait number s none
    rwa [joined_printTokens_none] at hline
  · have hline := readLine_print hprint wait number s (some a)
    rwa [joined_printTokens_some, ← List.append_assoc, ← List.append_assoc] at hline
  · have hline := readLine_guarded registry wait number h hc
    rwa [String.ofList_toList] at hline

/-- Quotes, backslashes, colons, commas and brackets, as a text and its author, as items and as a
line. -/
theorem texts_readBack_marks :
    readLine .builtin true 2
        ("@print ".toList ++ quote "\\\": [,]" ++ " author:".toList ++ quote "a: \\") =
      .ok (.command ⟨"print", .ofList [("author", .text "a: \\"), ("text", .text "\\\": [,]")],
        ⟨2, 0⟩, .none⟩, []) ∧
    ofSource ([','].intercalate (["\",", ""].map quote)) .textList =
      .list [.text "\",", .text ""] ∧
    readLine .builtin true 2 "\\a\\:\\ \\[\\\"".toList =
      .ok (.generic [⟨"print", .ofList [("text", .text "a: [\""), ("wait", .bool true)], ⟨2, 0⟩,
        .none⟩], []) := by
  have hprint : Registry.builtin.get? "print" = some Builtin.print :=
    Builtin.distinct Builtin.print (by simp [Registry.builtin, Builtin.handlers])
  obtain ⟨-, -, hauthor, hlist, hline⟩ := texts_readBack hprint true 2
  exact ⟨hauthor _ _, hlist _, hline "a: [\"" '"' (by decide) (by decide)⟩

end Script

end Playhead
