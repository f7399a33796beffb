import Playhead.Proofs.Script.Lines
import Playhead.Proofs.Script.Words
import Playhead.Proofs.Standing.Builtin

/-!
Labels can be reached.

A label has a character and no blank, so behind a dot it is one word of a line, neither a flag nor
a named value nor a text in quotes, and the dot is the only sign a jump target is cut at. Main
statement: `@goto .` and a label that a script has gives a jump to the commands behind the label.
-/

namespace Playhead

open Text Token

/-- What may be written behind a `#`. -/
def IsLabel (cs : List Char) : Prop :=
  cs ≠ [] ∧ ∀ c ∈ cs, isBlank c = false

namespace Script

variable {registry : Registry} {wait : Bool} {number : Nat} {cs : List Char} {label : String}

theorem isLabel_of_readLine {raw : List Char} {notes : List String}
    (h : readLine registry wait number raw = .ok (.label label, notes)) :
    IsLabel label.toList := by
  unfold readLine at h
  dsimp only at h
  split at h
  · cases h
  · cases h
  · rename_i rest _
    split at h
    · cases h
    · rename_i hname
      cases h
      simp only [Bool.or_eq_true, List.isEmpty_iff, List.any_eq_true, not_or, not_exists,
        not_and, Bool.not_eq_true] at hname
      rwa [String.toList_ofList]
  · obtain ⟨⟨found, before⟩, -, h⟩ := exists_of_map_ok h
    cases found <;> cases h
  · obtain ⟨r, -, h⟩ := exists_of_map_ok h
    cases h

theorem Reads.isLabel {raws : List (List Char)} {lines : List ScriptLine}
    (h : Reads registry wait number raws lines) (hlabel : .label label ∈ lines) :
    IsLabel label.toList := by
  induction h with
  | nil => cases hlabel
  | cons h _ ih =>
    obtain rfl | hlabel := List.mem_cons.1 hlabel
    · exact isLabel_of_readLine h
    · exact ih hlabel

/-- A text without blanks is not cut. -/
theorem tokensBehind_noBlank (h : ∀ c ∈ cs, isBlank c = false) (quoted : Bool) (w : List Char) :
    tokensBehind quoted w cs = pushToken (cs.reverse ++ w) [] := by
  fun_induction tokensBehind quoted w cs with
  | case1 => rfl
  | case2 quoted w c rest ih =>
    rw [ih fun d hd => h d (by simp [hd])]
    simp
  | case3 quoted w rest _ ih =>
    rw [ih fun d hd => h d (by simp [hd])]
    simp
  | case4 quoted w c rest _ _ hblank =>
    rw [h c List.mem_cons_self] at hblank
    cases hblank
  | case5 quoted w c rest _ _ _ ih =>
    rw [ih fun d hd => h d (by simp [hd])]
    simp

theorem splitTokens_noBlank (hne : cs ≠ []) (h : ∀ c ∈ cs, isBlank c = false) :
    splitTokens cs = [cs] := by
  rw [splitTokens, tokensBehind_noBlank h, pushToken]
  simp [hne]

/-- A text that starts with a dot is no flag. -/
theorem asFlag_dot (cs : List Char) : asFlag ('.' :: cs) = none := by
  unfold asFlag
  split
  · cases cs with
    | nil => rfl
    | cons c cs => rfl
  · rfl

/-- A text that starts with a dot is no named value. -/
theorem splitNamed_dot (cs : List Char) : splitNamed ('.' :: cs) = none := by
  unfold splitNamed
  dsimp only
  split <;> rfl

/-- A text that starts with a dot is not in quotes. -/
theorem ofSource_dot (cs : List Char) :
    ParamValue.ofSource ('.' :: cs) .text = .text (String.ofList ('.' :: cs)) := by
  unfold ParamValue.ofSource ParamValue.unquoteChars
  dsimp only
  rw [trim_cons (by decide)]
  rfl

theorem close_dot (cs : List Char) :
    (['.' :: cs].foldl (Reading.take Builtin.goto) {}).close Builtin.goto =
      { params := .ofList [("target", .text (String.ofList ('.' :: cs)))]
        nameless := ['.' :: cs] } := by
  have htake : Reading.take Builtin.goto {} ('.' :: cs) = { nameless := ['.' :: cs] } := by
    rw [Reading.take, asFlag_dot]
    exact Reading.takeValue_nameless (splitNamed_dot cs) rfl
  rw [List.foldl_cons, List.foldl_nil, htake]
  show Reading.assign _ "target" (ParamValue.ofSource (Reading.joined ['.' :: cs]) .text) = _
  rw [joined_singleton, ofSource_dot]
  rfl

/-- The command that `@goto` makes of a target. -/
def gotoCommand (target : String) (spot : SourceSpot) : Command :=
  ⟨"goto", .ofList [("target", .text target)], spot, .none⟩

theorem param_gotoCommand (target : String) (spot : SourceSpot) (name : String) :
    (gotoCommand target spot).param name =
      if "target" = name then .text target else .unassigned := by
  unfold Command.param gotoCommand
  simp only [NameMap.ofList, List.foldl_cons, List.foldl_nil, NameMap.get?_insert]
  split <;> rfl

theorem text_gotoCommand (target : String) (spot : SourceSpot) :
    (gotoCommand target spot).text "target" = .ok (some target) := by
  rw [Command.text, Command.optional, param_gotoCommand, if_pos rfl]

theorem readParams_goto (cs : List Char) (spot : SourceSpot) :
    readParams Builtin.goto spot ['.' :: cs] =
      .ok (gotoCommand (String.ofList ('.' :: cs)) spot, []) := by
  refine readParams_eq_ok (close_dot cs) rfl rfl rfl ?_ ?_
  · have hspecs : Reading.specs Builtin.goto = [Builtin.required "target" .text, .condition] := rfl
    intro spec hspec
    rw [hspecs] at hspec
    simp only [List.mem_cons, List.not_mem_nil, or_false] at hspec
    obtain rfl | rfl := hspec <;>
      simp [Reading.checkSpec, param_gotoCommand, Builtin.required, ParamSpec.condition]
  · simp [Reading.checkCondition, Command.condition, Command.expression, Command.optional,
      param_gotoCommand, ParamSpec.condition]

theorem readLine_goto (hgoto : registry.get? "goto" = some Builtin.goto) (wait : Bool)
    (number : Nat) (h : ∀ c ∈ cs, isBlank c = false) :
    readLine registry wait number ("@goto .".toList ++ cs) =
      .ok (.command (gotoCommand (String.ofList ('.' :: cs)) ⟨number, 0⟩), []) := by
  have hdot : ∀ c ∈ '.' :: cs, isBlank c = false := by
    simpa using ⟨by decide, h⟩
  have hblank : ¬ IsBlank ('.' :: cs) := fun hblank =>
    absurd (hblank '.' List.mem_cons_self) (by decide)
  have hname : Outside isPlain "goto".toList := outside_of_all (by decide)
  have hline := readLine_command wait number hname (by decide) hgoto hblank
  rw [trimEnd_eq_self hdot, splitTokens_noBlank (List.cons_ne_nil _ _) hdot,
    readParams_goto] at hline
  exact hline

end Script

namespace JumpTarget

theorem parse?_dot {name : String} (h : IsLabel name.toList) :
    parse? (String.ofList ('.' :: name.toList)) = some (.label none (some name)) := by
  obtain ⟨hne, hblank⟩ := h
  have htrim : trim ('.' :: name.toList) = '.' :: name.toList := by
    rw [trim_cons (by decide), trimEnd_eq_self hblank]
  have hscript : ('.' :: name.toList).takeWhile (· != '.') = [] := rfl
  have hrest : ('.' :: name.toList).dropWhile (· != '.') = '.' :: name.toList := rfl
  unfold parse?
  rw [String.toList_ofList]
  dsimp only
  rw [htrim, hscript, hrest]
  dsimp only
  rw [trim_eq_self hblank, if_neg (by simpa using hne), String.ofList_toList]
  rfl

end JumpTarget

/-- A target in the script that plays is looked up in that script, as it plays. -/
theorem Playback.resolveJump_here (env : Env) {p : Playback} {d : Document}
    (hd : p.player.document = some d) {script : Option String}
    (hs : script = none ∨ script = some d.name) (label : Option String) :
    p.resolveJump env (.label script label) =
      (p, match label with
        | none => .ok (d, 0)
        | some sought =>
          match d.labelIndex? sought with
          | some index => .ok (d, index)
          | none => .error (.unknownLabel d.name sought)) := by
  have hscript : script.getD d.name = d.name := by
    obtain rfl | rfl := hs <;> rfl
  have hhere : p.documentFor env d d.name = (p, .ok d) := if_pos rfl
  unfold resolveJump
  simp only [hd, hscript, hhere]
  cases label with
  | none => rfl
  | some sought => cases hindex : d.labelIndex? sought <;> simp only [hindex]

namespace Document

open Script (Reads commandsOf)

variable {registry : Registry} {wait : Bool} {name source label : String} {d : Document}

/-- Every label that a script knows can be jumped to: `@goto .` and the label are read with no
message as a jump, which leads behind the commands of the lines in front of the first one with this
label. -/
theorem label_reached (h : parse registry wait name source = .ok d)
    (hlabel : (d.labelIndex? label).isSome) {here : Registry}
    (hgoto : here.get? "goto" = some Builtin.goto) (waits : Bool) (number : Nat) :
    ∃ c target before after,
      Script.readLine here waits number ("@goto ." ++ label).toList = .ok (.command c, []) ∧
      c.name = "goto" ∧ Builtin.goto.begin c = .ok (.jump target false) ∧
      d.lines = before ++ .label label :: after ∧ .label label ∉ before ∧
      Reads registry wait 1 (Text.lines source) d.lines ∧
      ∀ env (p : Playback), p.player.document = some d →
        p.resolveJump env target = (p, .ok (d, (commandsOf before).length)) := by
  obtain ⟨index, hindex⟩ := Option.isSome_iff_exists.1 hlabel
  obtain ⟨hreads, -, hlabels⟩ := parse_lines h
  obtain ⟨before, after, hlines, hfirst, rfl⟩ := (hlabels label index).1 hindex
  have hname : IsLabel label.toList := hreads.isLabel (hlines ▸ by simp)
  have hline := Script.readLine_goto hgoto waits number hname.2
  have hbegin : Builtin.goto.begin
      (Script.gotoCommand (String.ofList ('.' :: label.toList)) ⟨number, 0⟩) =
        .ok (.jump (.label none (some label)) false) :=
    Builtin.beginJump_eq_ok_iff.2
      ⟨_, _, Script.text_gotoCommand _ _, JumpTarget.parse?_dot hname, rfl⟩
  refine ⟨_, _, before, after, ?_, rfl, hbegin, hlines, hfirst, hreads, fun env p hp => ?_⟩
  · rw [String.toList_append]
    exact hline
  · rw [Playback.resolveJump_here env hp (.inl rfl)]
    simp only [hindex]

/-- A label between two lines, of all marks that a line or a target is cut at. -/
def markedLabel : String := "a.\"b:c\\!"

theorem label_reached_marks : ∃ d c target,
    parse .builtin true "tale" ("first\n# " ++ markedLabel ++ "\nsecond\n") = .ok d ∧
      Script.readLine .builtin true 7 ("@goto ." ++ markedLabel).toList = .ok (.command c, []) ∧
      Builtin.goto.begin c = .ok (.jump target false) ∧
      ∀ env (p : Playback), p.player.document = some d →
        p.resolveJump env target = (p, .ok (d, 1)) := by
  have hrun : ((parse .builtin true "tale"
      ("first\n# " ++ markedLabel ++ "\nsecond\n")).toOption.any fun d =>
        d.labelIndex? markedLabel = some 1) = true := by
    decide +kernel
  obtain ⟨d, hd, hindex⟩ := (Option.any_eq_true _ _).1 hrun
  have hindex := of_decide_eq_true hindex
  have hparse := eq_ok_of_toOption hd
  have hgoto : Registry.builtin.get? "goto" = some Builtin.goto :=
    Builtin.distinct Builtin.goto (by simp [Registry.builtin, Builtin.handlers])
  obtain ⟨c, target, before, after, hline, -, hbegin, hlines, hfirst, -, hresolve⟩ :=
    label_reached hparse (Option.isSome_iff_exists.2 ⟨1, hindex⟩) hgoto true 7
  obtain ⟨-, -, hlabels⟩ := parse_lines hparse
  have hcount := (hlabels markedLabel _).2 ⟨before, after, hlines, hfirst, rfl⟩
  rw [Option.some.inj (hcount.symm.trans hindex)] at hresolve
  exact ⟨d, c, target, hparse, hline, hbegin, hresolve⟩

end Document

end Playhead
