import Playhead.Proofs.Script.Staged

/-!
Where the commands and the labels of a script stand.

The commands of a source follow one another from line to line and are numbered on each line, so the
first command on a line or after it is found by halving the script. A label stands for the number
of commands in front of the first line that bears it.
-/

namespace Playhead

/-- Whether a place of a source is in front of another one. -/
def SourceSpot.Before (a b : SourceSpot) : Prop :=
  a.line < b.line ∨ a.line = b.line ∧ a.inline < b.inline

namespace Script

variable {registry : Registry} {wait : Bool} {number : Nat} {raws : List (List Char)}
  {lines : List ScriptLine}

theorem spot_readCommand {spot : SourceSpot} {body : List Char} {found : Option Command}
    {notes : List String} (h : readCommand registry spot body = .ok (found, notes)) :
    ∀ c ∈ found, c.spot = spot := by
  unfold readCommand at h
  dsimp only at h
  split at h
  · cases h
    exact fun c hc => by cases hc
  · split at h
    · cases h
      exact fun c hc => by cases hc
    · obtain ⟨r, hr, h⟩ := exists_of_map_ok h
      obtain ⟨more, -, hr⟩ := exists_of_bind_ok hr
      cases hr
      cases h
      exact fun c hc => by cases hc; rfl

/-- The commands of a line are numbered one after the other, whatever stands between them. -/
theorem spots_readSegments {author : Option String} {line count : Nat} {segments : List Segment}
    {cs : List Command} {notes : List String}
    (h : readSegments registry author line count segments = .ok (cs, notes)) :
    cs.map (·.spot) = (List.range' count cs.length).map (SourceSpot.mk line) := by
  induction segments generalizing count cs notes with
  | nil =>
    cases h
    rfl
  | cons s rest ih =>
    cases s with
    | unclosed =>
      obtain ⟨⟨cs', notes'⟩, hrest, h⟩ := exists_of_bind_ok h
      cases h
      exact ih hrest
    | text text =>
      unfold readSegments at h
      split at h
      · exact ih h
      · obtain ⟨⟨cs', notes'⟩, hrest, h⟩ := exists_of_bind_ok h
        cases h
        rw [List.map_cons, ih hrest]
        rfl
    | command body =>
      obtain ⟨⟨found, before⟩, hc, h⟩ := exists_of_bind_ok h
      obtain ⟨⟨cs', notes'⟩, hrest, h⟩ := exists_of_bind_ok h
      cases h
      cases found with
      | none => exact ih hrest
      | some c =>
        have hspot : c.spot = ⟨line, count⟩ := spot_readCommand hc c rfl
        have hcs : cs'.map (·.spot) = _ := ih hrest
        show c.spot :: cs'.map (·.spot) = _
        rw [hspot, hcs]
        rfl

theorem spots_waitAtEnd (cs : List Command) :
    (waitAtEnd cs).map (·.spot) = cs.map (·.spot) := by
  unfold waitAtEnd
  split
  · rename_i last hlast
    split
    · obtain ⟨init, rfl⟩ := List.getLast?_eq_some_iff.1 hlast
      simp
    · rfl
  · rfl

/-- The commands of a line are numbered from zero on. -/
theorem spots_readLine {raw : List Char} {line : ScriptLine} {notes : List String}
    (h : readLine registry wait number raw = .ok (line, notes)) :
    line.commands.map (·.spot) =
      (List.range line.commands.length).map (SourceSpot.mk number) := by
  obtain hnone | ⟨body, found, before, hc, hline⟩ | ⟨author, segments, cs, before, hs, hline⟩ :=
    commands_readLine h
  · rw [hnone]
    rfl
  · rw [hline]
    cases found with
    | none => rfl
    | some c =>
      show [c.spot] = _
      rw [spot_readCommand hc c rfl]
      rfl
  · have hspots := spots_readSegments hs
    rw [← List.range_eq_range'] at hspots
    obtain hline | hline := hline
    · rw [hline, hspots]
    · have hlength := congrArg List.length (spots_waitAtEnd cs)
      rw [List.length_map, List.length_map] at hlength
      rw [hline, spots_waitAtEnd, hlength, hspots]

/-- Lines of a source, numbered one after the other, and what is read of each. -/
inductive Reads (registry : Registry) (wait : Bool) :
    Nat → List (List Char) → List ScriptLine → Prop where
  | nil (number : Nat) : Reads registry wait number [] []
  | cons {number : Nat} {raw : List Char} {raws : List (List Char)} {line : ScriptLine}
      {lines : List ScriptLine} {notes : List String}
      (h : readLine registry wait number raw = .ok (line, notes))
      (tail : Reads registry wait (number + 1) raws lines) :
      Reads registry wait number (raw :: raws) (line :: lines)

/-- All commands of some lines. -/
def commandsOf (lines : List ScriptLine) : List Command :=
  lines.flatMap (·.commands)

@[simp] theorem commandsOf_nil : commandsOf [] = [] := rfl

@[simp] theorem commandsOf_cons (line : ScriptLine) (lines : List ScriptLine) :
    commandsOf (line :: lines) = line.commands ++ commandsOf lines := rfl

@[simp] theorem commandsOf_append (lines more : List ScriptLine) :
    commandsOf (lines ++ more) = commandsOf lines ++ commandsOf more :=
  List.flatMap_append

theorem line_of_mem {raw : List Char} {line : ScriptLine} {notes : List String}
    (h : readLine registry wait number raw = .ok (line, notes)) {c : Command}
    (hc : c ∈ line.commands) : c.spot.line = number := by
  have hmem : c.spot ∈ line.commands.map (·.spot) := List.mem_map_of_mem hc
  rw [spots_readLine h] at hmem
  obtain ⟨i, -, hi⟩ := List.mem_map.1 hmem
  rw [← hi]

theorem inline_of_getElem? {raw : List Char} {line : ScriptLine} {notes : List String}
    (h : readLine registry wait number raw = .ok (line, notes)) {i : Nat} {c : Command}
    (hc : line.commands[i]? = some c) : c.spot.inline = i := by
  have hspot : (line.commands.map (·.spot))[i]? = some c.spot := by rw [List.getElem?_map, hc]; rfl
  have hi : i < line.commands.length := (List.getElem?_eq_some_iff.1 hc).1
  rw [spots_readLine h, List.getElem?_map, List.getElem?_range hi] at hspot
  exact congrArg SourceSpot.inline (Option.some.inj hspot).symm

namespace Reads

theorem le_line (h : Reads registry wait number raws lines) :
    ∀ c ∈ commandsOf lines, number ≤ c.spot.line := by
  induction h with
  | nil => exact fun c hc => by cases hc
  | cons h _ ih =>
    intro c hc
    obtain hc | hc := List.mem_append.1 hc
    · exact (line_of_mem h hc).ge
    · exact Nat.le_of_succ_le (ih c hc)

/-- Every command is behind the ones that are read before it. -/
theorem pairwise_before (h : Reads registry wait number raws lines) :
    (commandsOf lines).Pairwise fun a b => a.spot.Before b.spot := by
  induction h with
  | nil => exact .nil
  | @cons number raw raws line lines notes h tail ih =>
    refine List.pairwise_append.2 ⟨?_, ih, fun a ha b hb => ?_⟩
    · have hrange : ((List.range line.commands.length).map (SourceSpot.mk number)).Pairwise
          SourceSpot.Before :=
        List.pairwise_map.2 (List.pairwise_lt_range.imp fun hlt => .inr ⟨rfl, hlt⟩)
      rw [← spots_readLine h] at hrange
      exact List.pairwise_map.1 hrange
    · refine .inl ?_
      rw [line_of_mem h ha]
      exact tail.le_line b hb

/-- A command is numbered by the commands that are read before it on its line. -/
theorem inline_eq_countP (h : Reads registry wait number raws lines) {i : Nat} {c : Command}
    (hc : (commandsOf lines)[i]? = some c) :
    c.spot.inline = ((commandsOf lines).take i).countP fun b => b.spot.line = c.spot.line := by
  induction h generalizing i with
  | nil => cases hc
  | @cons number raw raws line lines notes h tail ih =>
    rw [commandsOf_cons] at hc ⊢
    by_cases hi : i < line.commands.length
    · rw [List.getElem?_append_left hi] at hc
      have hline := line_of_mem h (List.mem_of_getElem? hc)
      have hall : ∀ b ∈ line.commands.take i, decide (b.spot.line = c.spot.line) = true := by
        intro b hb
        rw [hline, line_of_mem h (List.mem_of_mem_take hb)]
        exact decide_eq_true rfl
      rw [List.take_append_of_le_length (Nat.le_of_lt hi), List.countP_eq_length.2 hall,
        List.length_take_of_le (Nat.le_of_lt hi), inline_of_getElem? h hc]
    · have hle := Nat.le_of_not_lt hi
      rw [List.getElem?_append_right hle] at hc
      have hlt : number < c.spot.line := tail.le_line c (List.mem_of_getElem? hc)
      have hnone : line.commands.countP (fun b => b.spot.line = c.spot.line) = 0 := by
        refine List.countP_eq_zero.2 fun b hb => ?_
        rw [line_of_mem h hb]
        simpa using Nat.ne_of_lt hlt
      rw [List.take_append, List.take_of_length_le hle, List.countP_append, hnone, Nat.zero_add,
        ih hc]

end Reads

end Script

namespace Document

variable {registry : Registry} {wait : Bool} {number : Nat} {raws : List (List Char)}
  {read lines : List ScriptLine} {d d' : Draft}

open Script (Reads commandsOf commandsOf_append)

/-- What a draft has of the lines that were read so far. -/
structure Draft.Holds (d : Draft) (read : List ScriptLine) : Prop where
  lines : d.lines.reverse = read
  commands : d.commands.toList = commandsOf read
  labels : ∀ name i, d.labels.get? name = some i ↔ ∃ before after,
    read = before ++ .label name :: after ∧ .label name ∉ before ∧ i = (commandsOf before).length

theorem Draft.holds_nil : ({} : Draft).Holds [] :=
  ⟨rfl, rfl, fun name i => ⟨fun h => (nomatch h), fun ⟨before, after, h, _⟩ => by simp at h⟩⟩

/-- The first line with a label is found in front of a new line, or it is the new one. -/
theorem exists_first_concat {name : String} {line : ScriptLine} {P : List ScriptLine → Prop} :
    (∃ before after, read ++ [line] = before ++ .label name :: after ∧ .label name ∉ before ∧
        P before) ↔
      (∃ before after, read = before ++ .label name :: after ∧ .label name ∉ before ∧ P before) ∨
        .label name ∉ read ∧ line = .label name ∧ P read := by
  constructor
  · rintro ⟨before, after, h, hfirst, hP⟩
    rcases List.eq_nil_or_concat after with rfl | ⟨after, last, rfl⟩
    · obtain ⟨rfl, hline⟩ := List.append_inj' h rfl
      exact .inr ⟨hfirst, (List.cons.inj hline).1, hP⟩
    · rw [List.concat_eq_append, ← List.cons_append, ← List.append_assoc] at h
      obtain ⟨rfl, -⟩ := List.append_inj' h rfl
      exact .inl ⟨before, after, rfl, hfirst, hP⟩
  · rintro (⟨before, after, rfl, hfirst, hP⟩ | ⟨hfirst, rfl, hP⟩)
    · exact ⟨before, after ++ [line], by simp, hfirst, hP⟩
    · exact ⟨read, [], rfl, hfirst, hP⟩

theorem Draft.Holds.get?_eq_none_iff (h : d.Holds read) (name : String) :
    d.labels.get? name = none ↔ .label name ∉ read := by
  rw [Option.eq_none_iff_forall_ne_some]
  constructor
  · intro hnone hmem
    obtain ⟨before, after, hread, hfirst⟩ := List.eq_append_cons_of_mem hmem
    exact hnone _ ((h.labels name _).2 ⟨before, after, hread, hfirst, rfl⟩)
  · intro hnot i hi
    obtain ⟨before, after, rfl, -⟩ := (h.labels name i).1 hi
    simp at hnot

theorem Draft.lines_add (d : Draft) (number : Nat) (line : ScriptLine) (notes : List String) :
    (d.add number line notes).lines = line :: d.lines := by
  unfold Draft.add
  cases line with
  | label name =>
    dsimp only
    split <;> rfl
  | _ => rfl

/-- A line adds its label at the commands so far, if the label is not known yet. -/
theorem Draft.get?_labels_add (d : Draft) (number : Nat) (line : ScriptLine)
    (notes : List String) (name : String) (i : Nat) :
    (d.add number line notes).labels.get? name = some i ↔ d.labels.get? name = some i ∨
      d.labels.get? name = none ∧ line = .label name ∧ i = d.commands.size := by
  unfold Draft.add
  cases line with
  | label other =>
    dsimp only
    split
    · rename_i hknown
      rw [NameMap.contains, Option.isSome_iff_ne_none] at hknown
      refine ⟨.inl, ?_⟩
      rintro (hget | ⟨hnone, hname, -⟩)
      · exact hget
      · cases hname
        exact absurd hnone hknown
    · rename_i hnew
      rw [NameMap.contains, Bool.not_eq_true, Option.isSome_eq_false_iff,
        Option.isNone_iff_eq_none] at hnew
      rw [NameMap.get?_insert]
      split
      · rename_i hname
        subst hname
        simp [hnew, eq_comm]
      · rename_i hname
        simp [hname]
  | _ => simp

/-- A line adds its commands, and its label if that is not known yet. -/
theorem Draft.Holds.add (h : d.Holds read) (number : Nat) (line : ScriptLine)
    (notes : List String) : (d.add number line notes).Holds (read ++ [line]) where
  lines := by rw [Draft.lines_add, List.reverse_cons, h.lines]
  commands := by
    rw [Draft.commands_add, Array.toList_appendList, h.commands, commandsOf_append]
    simp
  labels name i := by
    have hsize : d.commands.size = (commandsOf read).length := by
      rw [← h.commands, Array.length_toList]
    rw [Draft.get?_labels_add, h.get?_eq_none_iff, h.labels, hsize,
      exists_first_concat (P := fun before => i = (commandsOf before).length)]

theorem readLines_holds (h : readLines registry wait number d raws = .ok d') (hd : d.Holds read) :
    ∃ lines, Reads registry wait number raws lines ∧ d'.Holds (read ++ lines) := by
  induction raws generalizing number d read with
  | nil =>
    cases h
    exact ⟨[], .nil number, by rwa [List.append_nil]⟩
  | cons raw rest ih =>
    unfold readLines at h
    cases hl : Script.readLine registry wait number raw with
    | error e =>
      rw [hl] at h
      cases h
    | ok r =>
      rw [hl] at h
      obtain ⟨lines, hreads, hholds⟩ := ih h (hd.add number r.1 r.2)
      refine ⟨r.1 :: lines, .cons hl hreads, ?_⟩
      rwa [List.append_assoc, List.singleton_append] at hholds

/-- What a script holds of the lines of its source. -/
theorem parse_lines {name source : String} {d : Document}
    (h : parse registry wait name source = .ok d) :
    Reads registry wait 1 (Text.lines source) d.lines ∧
      d.commands.toList = commandsOf d.lines ∧
      ∀ label i, d.labelIndex? label = some i ↔ ∃ before after,
        d.lines = before ++ .label label :: after ∧ .label label ∉ before ∧
          i = (commandsOf before).length := by
  obtain ⟨draft, hdraft, hcommands, -, -, hlines, hlabels, -⟩ := parse_eq_ok h
  obtain ⟨lines, hreads, hholds⟩ := readLines_holds hdraft Draft.holds_nil
  rw [List.nil_append] at hholds
  obtain rfl : d.lines = lines := hlines.trans hholds.lines
  unfold labelIndex?
  rw [hcommands, hlabels]
  exact ⟨hreads, hholds.commands, hholds.labels⟩

/-! ### The first command on a line or after it -/

section

variable {test : Nat → Bool} {first last : Nat}

theorem bisect_spec (hle : first ≤ last)
    (htest : ∀ i j, i ≤ j → j < last → test j = true → test i = true) :
    bisect test first last ≤ last ∧
      (∀ i, first ≤ i → i < bisect test first last → test i = true) ∧
      ∀ i, bisect test first last ≤ i → i < last → test i = false := by
  fun_induction bisect test first last with
  | case1 first last hlt middle hmiddle ih =>
    obtain ⟨hend, hbelow, habove⟩ := ih (by omega) htest
    refine ⟨hend, fun i hi hlt' => ?_, habove⟩
    by_cases h : i ≤ middle
    · exact htest i middle h (by omega) hmiddle
    · exact hbelow i (by omega) hlt'
  | case2 first last hlt middle hmiddle ih =>
    have htest' : ∀ i j, i ≤ j → j < middle → test j = true → test i = true :=
      fun i j hij hj => htest i j hij (by omega)
    obtain ⟨hend, hbelow, habove⟩ := ih (by omega) htest'
    refine ⟨by omega, hbelow, fun i hi hlt' => ?_⟩
    by_cases h : i < middle
    · exact habove i hi h
    · refine Bool.eq_false_iff.2 fun hpass => hmiddle ?_
      exact htest middle i (Nat.le_of_not_lt h) hlt' hpass
  | case3 first last hlt =>
    exact ⟨hle, fun i hi hlt' => absurd hlt' (by omega), fun i hi hlt' => absurd hlt' (by omega)⟩

end

section

variable {d : Document} {line index : Nat}

/-- The commands of earlier lines are the ones in front of some index. -/
theorem exists_indexForLine?_eq
    (hd : d.commands.toList.Pairwise fun a b => a.spot.line ≤ b.spot.line) (line : Nat) :
    ∃ k, (∀ i c, d.command? i = some c → (c.spot.line < line ↔ i < k)) ∧
      d.indexForLine? line = if k < d.size then some k else none := by
  obtain ⟨test, htest⟩ : ∃ test : Nat → Bool,
    test = fun i => (d.command? i).any fun c => c.spot.line < line := ⟨_, rfl⟩
  have hcommand : ∀ i c, d.command? i = some c → test i = decide (c.spot.line < line) := by
    intro i c hc
    rw [htest]
    simp [hc]
  have hprefix : ∀ i j, i ≤ j → j < d.size → test j = true → test i = true := by
    intro i j hij hj htrue
    obtain rfl | hlt := Nat.eq_or_lt_of_le hij
    · exact htrue
    · have hi : i < d.size := Nat.lt_trans hlt hj
      have hle : d.commands[i].spot.line ≤ d.commands[j].spot.line :=
        List.pairwise_iff_getElem.1 hd i j hi hj hlt
      rw [hcommand j _ (Array.getElem?_eq_getElem hj)] at htrue
      rw [hcommand i _ (Array.getElem?_eq_getElem hi)]
      exact decide_eq_true (Nat.lt_of_le_of_lt hle (of_decide_eq_true htrue))
  obtain ⟨hend, hbelow, habove⟩ := bisect_spec (Nat.zero_le d.size) hprefix
  refine ⟨bisect test 0 d.size, fun i c hc => ?_, by rw [htest]; rfl⟩
  have hi : i < d.size := (Array.getElem?_eq_some_iff.1 hc).1
  constructor
  · intro hline
    refine Nat.lt_of_not_le fun hle => ?_
    have hfalse := habove i hle hi
    rw [hcommand i c hc, decide_eq_true hline] at hfalse
    cases hfalse
  · intro hlt
    have htrue := hbelow i (Nat.zero_le i) hlt
    rw [hcommand i c hc] at htrue
    exact of_decide_eq_true htrue

theorem indexForLine?_eq_some_iff
    (hd : d.commands.toList.Pairwise fun a b => a.spot.line ≤ b.spot.line) :
    d.indexForLine? line = some index ↔
      (∃ c, d.command? index = some c ∧ line ≤ c.spot.line) ∧
        ∀ i c, i < index → d.command? i = some c → c.spot.line < line := by
  obtain ⟨k, hk, heq⟩ := exists_indexForLine?_eq hd line
  rw [heq]
  constructor
  · intro h
    obtain ⟨hsize, hk'⟩ := Option.ite_none_right_eq_some.1 h
    obtain rfl := Option.some.inj hk'
    refine ⟨⟨d.commands[k], Array.getElem?_eq_getElem hsize, ?_⟩, fun i c hi hc => ?_⟩
    · refine Nat.le_of_not_lt fun hlt => ?_
      exact Nat.lt_irrefl k ((hk k _ (Array.getElem?_eq_getElem hsize)).1 hlt)
    · exact (hk i c hc).2 hi
  · rintro ⟨⟨c, hc, hline⟩, hbelow⟩
    have hindex : index < d.size := (Array.getElem?_eq_some_iff.1 hc).1
    have hle : k ≤ index := Nat.le_of_not_lt fun hlt =>
      Nat.not_lt.2 hline ((hk index c hc).2 hlt)
    obtain rfl | hlt := Nat.eq_or_lt_of_le hle
    · exact if_pos hindex
    · have hsize : k < d.size := Nat.lt_trans hlt hindex
      have hget : d.command? k = some d.commands[k] := Array.getElem?_eq_getElem hsize
      exact absurd ((hk k _ hget).1 (hbelow k _ hlt hget)) (Nat.lt_irrefl k)

theorem indexForLine?_eq_none_iff
    (hd : d.commands.toList.Pairwise fun a b => a.spot.line ≤ b.spot.line) :
    d.indexForLine? line = none ↔ ∀ i c, d.command? i = some c → c.spot.line < line := by
  obtain ⟨k, hk, heq⟩ := exists_indexForLine?_eq hd line
  have hnone : (if k < d.size then some k else none) = none ↔ d.size ≤ k := by simp
  rw [heq, hnone]
  constructor
  · intro h i c hc
    exact (hk i c hc).2 (Nat.lt_of_lt_of_le (Array.getElem?_eq_some_iff.1 hc).1 h)
  · intro h
    exact Nat.le_of_not_lt fun hsize => Nat.lt_irrefl k
      ((hk k _ (Array.getElem?_eq_getElem hsize)).1 (h k _ (Array.getElem?_eq_getElem hsize)))

end

/-! ### Lines with commands and lines without -/

section

variable {d : Document} {n m : Nat}

/-- Whether a script has a command on a line. -/
def Bears (d : Document) (n : Nat) : Prop :=
  ∃ i c, d.command? i = some c ∧ c.spot.line = n

/-- Whether the command at an index is the first one on a line. -/
def Begins (d : Document) (n i : Nat) : Prop :=
  (∃ c, d.command? i = some c ∧ c.spot.line = n) ∧
    ∀ j c, j < i → d.command? j = some c → c.spot.line ≠ n

theorem bears_iff_mem : d.Bears n ↔ n ∈ d.commands.toList.map (·.spot.line) := by
  constructor
  · rintro ⟨i, c, hc, rfl⟩
    exact List.mem_map_of_mem (mem_of_command? hc)
  · intro h
    obtain ⟨c, hc, hn⟩ := List.mem_map.1 h
    obtain ⟨i, hi, rfl⟩ := List.mem_iff_getElem.1 hc
    exact ⟨i, _, Array.getElem?_eq_getElem hi, hn⟩

theorem Parsed.ordered (h : d.Parsed registry) :
    d.commands.toList.Pairwise fun a b => a.spot.line ≤ b.spot.line := by
  obtain ⟨wait, source, h⟩ := h
  obtain ⟨hreads, hcommands, -⟩ := parse_lines h
  rw [hcommands]
  exact hreads.pairwise_before.imp fun h => h.elim Nat.le_of_lt fun h => Nat.le_of_eq h.1

theorem Parsed.indexForLine?_eq_none (hd : d.Parsed registry) (h : ∀ k, n ≤ k → ¬d.Bears k) :
    d.indexForLine? n = none :=
  (indexForLine?_eq_none_iff hd.ordered).2 fun i c hc =>
    Nat.lt_of_not_le fun hle => h _ hle ⟨i, c, hc, rfl⟩

/-- Lines without commands are taken for the next line that has one. -/
theorem Parsed.indexForLine?_eq (hd : d.Parsed registry) (hle : n ≤ m) (hm : d.Bears m)
    (h : ∀ k, n ≤ k → k < m → ¬d.Bears k) : d.indexForLine? n = d.indexForLine? m := by
  have hline : ∀ i c, d.command? i = some c → c.spot.line < m → c.spot.line < n :=
    fun i c hc hlt => Nat.lt_of_not_le fun hge => h _ hge hlt ⟨i, c, hc, rfl⟩
  cases hi : d.indexForLine? m with
  | none =>
    obtain ⟨i, c, hc, hcm⟩ := hm
    exact absurd ((indexForLine?_eq_none_iff hd.ordered).1 hi i c hc) (Nat.not_lt.2 hcm.ge)
  | some i =>
    obtain ⟨⟨c, hc, hcm⟩, hbelow⟩ := (indexForLine?_eq_some_iff hd.ordered).1 hi
    exact (indexForLine?_eq_some_iff hd.ordered).2
      ⟨⟨c, hc, hle.trans hcm⟩, fun j c hj hc => hline j c hc (hbelow j c hj hc)⟩

theorem Parsed.exists_begins (hd : d.Parsed registry) (h : d.Bears n) :
    ∃ i, d.indexForLine? n = some i ∧ d.Begins n i := by
  obtain ⟨k, b, hb, hbn⟩ := h
  cases hi : d.indexForLine? n with
  | none =>
    exact absurd ((indexForLine?_eq_none_iff hd.ordered).1 hi k b hb) (Nat.not_lt.2 hbn.ge)
  | some i =>
    obtain ⟨⟨c, hc, hline⟩, hbelow⟩ := (indexForLine?_eq_some_iff hd.ordered).1 hi
    have hik : i ≤ k := by
      refine Nat.le_of_not_lt fun hlt => ?_
      exact absurd (hbelow k b hlt hb) (Nat.not_lt.2 hbn.ge)
    have hcb : c.spot.line ≤ b.spot.line := by
      rcases Nat.eq_or_lt_of_le hik with rfl | hlt
      · cases hc.symm.trans hb
        exact Nat.le_refl _
      · obtain ⟨hi', rfl⟩ := Array.getElem?_eq_some_iff.1 hc
        obtain ⟨hk', rfl⟩ := Array.getElem?_eq_some_iff.1 hb
        exact List.pairwise_iff_getElem.1 hd.ordered i k hi' hk' hlt
    exact ⟨i, rfl, ⟨c, hc, Nat.le_antisymm (hbn ▸ hcb) hline⟩,
      fun j c hj hc => (hbelow j c hj hc).ne⟩

end

/-- The commands of a script that was read are in the order of their places in the source and
numbered on each line, and looking up a line gives the first command on it or after it. -/
theorem parse_spots {name source : String} {d : Document}
    (h : parse registry wait name source = .ok d) :
    (d.commands.toList.Pairwise fun a b => a.spot.Before b.spot) ∧
    (∀ i c, d.command? i = some c →
      c.spot.inline = (d.commands.toList.take i).countP fun b => b.spot.line = c.spot.line) ∧
    ∀ line,
      (∀ index, d.indexForLine? line = some index ↔
        (∃ c, d.command? index = some c ∧ line ≤ c.spot.line) ∧
          ∀ i c, i < index → d.command? i = some c → c.spot.line < line) ∧
      (d.indexForLine? line = none ↔ ∀ i c, d.command? i = some c → c.spot.line < line) := by
  obtain ⟨hreads, hcommands, -⟩ := parse_lines h
  have hbefore := hreads.pairwise_before
  rw [← hcommands] at hbefore
  have hline : d.commands.toList.Pairwise fun a b => a.spot.line ≤ b.spot.line :=
    hbefore.imp fun h => h.elim Nat.le_of_lt fun h => Nat.le_of_eq h.1
  refine ⟨hbefore, fun i c hc => ?_, fun line =>
    ⟨fun index => indexForLine?_eq_some_iff hline, indexForLine?_eq_none_iff hline⟩⟩
  have hget : (commandsOf d.lines)[i]? = some c := by
    rw [← hcommands, Array.getElem?_toList]
    exact hc
  rw [hreads.inline_eq_countP hget, hcommands]

/-- A line of text with two commands in it, a comment and a label between two lines, and a bracket
that is never closed. -/
def interspersed : String :=
  "Hello [wait 1]there[set x=1]\n; note\n# Label\n\n@goto .Label\nOpen [wait 1\n"

theorem parse_spots_interspersed : ∃ d, parse .builtin true "tale" interspersed = .ok d ∧
    d.commands.toList.map (·.spot) = [⟨1, 0⟩, ⟨1, 1⟩, ⟨1, 2⟩, ⟨1, 3⟩, ⟨5, 0⟩, ⟨6, 0⟩] ∧
    (d.commands.toList.Pairwise fun a b => a.spot.Before b.spot) ∧
    d.indexForLine? 2 = some 4 ∧ d.indexForLine? 7 = none := by
  have hrun : ((parse .builtin true "tale" interspersed).toOption.any fun d =>
      d.commands.toList.map (·.spot) = [⟨1, 0⟩, ⟨1, 1⟩, ⟨1, 2⟩, ⟨1, 3⟩, ⟨5, 0⟩, ⟨6, 0⟩] ∧
        d.indexForLine? 2 = some 4 ∧ d.indexForLine? 7 = none) = true := by
    decide +kernel
  obtain ⟨d, hd, hcheck⟩ := (Option.any_eq_true _ _).1 hrun
  obtain ⟨hspots, htwo, hseven⟩ := of_decide_eq_true hcheck
  have hparse := eq_ok_of_toOption hd
  exact ⟨d, hparse, hspots, (parse_spots hparse).1, htwo, hseven⟩

end Document

end Playhead
