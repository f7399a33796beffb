import Playhead.Library.Scripts
import Playhead.Proofs.Except
import Playhead.Proofs.Script.Nesting
import Playhead.Proofs.Script.Registered

/-!
What reading a script guarantees: its commands are those of registered handlers, and its branches
lead forward.
-/

namespace Playhead

/-- A command as its registered handler made it. -/
def Command.Known (registry : Registry) (c : Command) : Prop :=
  ∃ h, registry.get? c.name = some h ∧ h.name = c.name ∧ h.role = c.role

/-- A registry to which the built-in commands belong. -/
structure Registry.Sound (r : Registry) : Prop where
  distinct : r.Distinct
  builtin : ∀ h ∈ Builtin.handlers, r.get? h.name = some h

/-- A script as it is read: its commands are known, and its branches lead forward. -/
structure Document.Staged (registry : Registry) (d : Document) : Prop where
  known : ∀ c ∈ d.commands.toList, c.Known registry
  forward : ∀ i link, d.block? i = some link → i < link.next ∧ i < link.last

/-- A script that was read under its name. -/
def Document.Parsed (registry : Registry) (d : Document) : Prop :=
  ∃ waitByDefault source, Document.parse registry waitByDefault d.name source = .ok d

theorem Document.mem_of_command? {d : Document} {i : Nat} {c : Command}
    (h : d.command? i = some c) : c ∈ d.commands.toList := by
  obtain ⟨hi, rfl⟩ := Array.getElem?_eq_some_iff.1 h
  exact Array.getElem_mem_toList hi

theorem Document.Staged.handler {registry : Registry} {d : Document} (hd : d.Staged registry)
    {i : Nat} {c : Command} (hc : d.command? i = some c) : c.Known registry :=
  hd.known c (Document.mem_of_command? hc)

namespace Script

variable {registry : Registry}

theorem known_readCommand (hr : registry.Sound) {spot : SourceSpot} {body : List Char}
    {found : Option Command} {notes : List String}
    (h : readCommand registry spot body = .ok (found, notes)) :
    ∀ c ∈ found, c.Known registry := by
  unfold readCommand at h
  split at h
  · cases h
    intro c hc
    cases hc
  · dsimp only at h
    split at h
    · cases h
      intro c hc
      cases hc
    · rename_i k hk
      cases hp : readParams k spot _ with
      | error e =>
        rw [hp] at h
        cases h
      | ok r =>
        rw [hp] at h
        cases h
        obtain ⟨more, -, hr'⟩ := exists_of_bind_ok hp
        cases hr'
        intro c hc
        cases hc
        exact ⟨k, hr.distinct.get?_name hk, rfl, rfl⟩

theorem known_printCommand (hr : registry.Sound) (author : Option String) (spot : SourceSpot)
    (text : List Char) : (printCommand author spot text).Known registry :=
  ⟨Builtin.print, hr.builtin Builtin.print List.mem_cons_self, rfl, rfl⟩

theorem known_readSegments (hr : registry.Sound) {author : Option String} {line count : Nat}
    {segments : List Segment} {cs : List Command} {notes : List String}
    (h : readSegments registry author line count segments = .ok (cs, notes)) :
    ∀ c ∈ cs, c.Known registry := by
  induction segments generalizing count cs notes with
  | nil =>
    cases h
    intro c hc
    cases hc
  | cons s rest ih =>
    cases s with
    | unclosed =>
      obtain ⟨⟨cs', notes'⟩, hrest, h⟩ := exists_of_bind_ok h
      cases h
      exact ih hrest
    | text text =>
      unfold readSegments at h
      split at h
      · exact ih h
      · obtain ⟨⟨cs', notes'⟩, hrest, h⟩ := exists_of_bind_ok h
        cases h
        intro c hc
        rcases List.mem_cons.1 hc with rfl | hc
        · exact known_printCommand hr author _ text
        · exact ih hrest c hc
    | command body =>
      obtain ⟨⟨found, before⟩, hc, h⟩ := exists_of_bind_ok h
      obtain ⟨⟨cs', notes'⟩, hrest, h⟩ := exists_of_bind_ok h
      cases h
      intro c hmem
      rcases List.mem_append.1 hmem with hmem | hmem
      · exact known_readCommand hr hc c (Option.mem_toList.1 hmem)
      · exact ih hrest c hmem

theorem known_waitAtEnd {cs : List Command} (h : ∀ c ∈ cs, c.Known registry) :
    ∀ c ∈ waitAtEnd cs, c.Known registry := by
  unfold waitAtEnd
  split
  · rename_i last hlast
    split
    · intro c hc
      rcases List.mem_append.1 hc with hc | hc
      · exact h c (List.dropLast_subset cs hc)
      · rw [List.mem_singleton.1 hc]
        exact h last (List.mem_of_getLast? hlast)
    · exact h
  · exact h

/-- Where the commands of a line come from. -/
theorem commands_readLine {waitByDefault : Bool} {number : Nat} {raw : List Char}
    {line : ScriptLine} {notes : List String}
    (h : readLine registry waitByDefault number raw = .ok (line, notes)) :
    line.commands = [] ∨
      (∃ body found before, readCommand registry ⟨number, 0⟩ body = .ok (found, before) ∧
        line.commands = found.toList) ∨
      ∃ author segments cs before, readSegments registry author number 0 segments =
        .ok (cs, before) ∧ (line.commands = cs ∨ line.commands = waitAtEnd cs) := by
  unfold readLine at h
  dsimp only at h
  split at h
  · cases h
    exact .inl rfl
  · cases h
    exact .inl rfl
  · split at h <;> cases h <;> exact .inl rfl
  · rename_i body _
    obtain ⟨⟨found, before⟩, hc, h⟩ := exists_of_map_ok h
    refine .inr (.inl ⟨body, found, before, hc, ?_⟩)
    cases found <;> cases h <;> rfl
  · unfold readGeneric at h
    obtain ⟨r, hr, h⟩ := exists_of_map_ok h
    obtain ⟨⟨cs, before⟩, hs, hr⟩ := exists_of_map_ok hr
    refine .inr (.inr ⟨_, _, cs, before, hs, ?_⟩)
    cases hr
    cases h
    cases waitByDefault
    · exact .inl rfl
    · exact .inr rfl

theorem known_readLine (hr : registry.Sound) {waitByDefault : Bool} {number : Nat}
    {raw : List Char} {line : ScriptLine} {notes : List String}
    (h : readLine registry waitByDefault number raw = .ok (line, notes)) :
    ∀ c ∈ line.commands, c.Known registry := by
  obtain hnone | ⟨body, found, before, hc, hline⟩ | ⟨author, segments, cs, before, hs, hline⟩ :=
    commands_readLine h
  · rw [hnone]
    exact fun c hc => by cases hc
  · rw [hline]
    exact fun c hmem => known_readCommand hr hc c (Option.mem_toList.1 hmem)
  · obtain hline | hline := hline
    · rw [hline]
      exact known_readSegments hr hs
    · rw [hline]
      exact known_waitAtEnd (known_readSegments hr hs)

end Script

namespace Document

variable {registry : Registry}

theorem Draft.commands_add (d : Draft) (number : Nat) (line : ScriptLine) (notes : List String) :
    (d.add number line notes).commands = d.commands ++ line.commands := by
  unfold Draft.add
  cases line with
  | label name =>
    dsimp only
    split <;> simp [ScriptLine.commands]
  | _ => rfl

theorem known_readLines (hr : registry.Sound) {waitByDefault : Bool}
    {lines : List (List Char)} {number : Nat} {d d' : Draft}
    (h : readLines registry waitByDefault number d lines = .ok d')
    (hd : ∀ c ∈ d.commands.toList, c.Known registry) :
    ∀ c ∈ d'.commands.toList, c.Known registry := by
  induction lines generalizing number d with
  | nil =>
    cases h
    exact hd
  | cons raw rest ih =>
    unfold readLines at h
    cases hl : Script.readLine registry waitByDefault number raw with
    | error e =>
      rw [hl] at h
      cases h
    | ok r =>
      rw [hl] at h
      refine ih h fun c hc => ?_
      rw [Draft.commands_add, Array.toList_appendList] at hc
      rcases List.mem_append.1 hc with hc | hc
      · exact hd c hc
      · exact Script.known_readLine hr hl c hc

theorem parse_eq_ok {waitByDefault : Bool} {name source : String} {d : Document}
    (h : parse registry waitByDefault name source = .ok d) :
    ∃ draft, readLines registry waitByDefault 1 {} (Text.lines source) = .ok draft ∧
      d.commands = draft.commands ∧ d.name = name ∧
      BlockMap.ofCommands name draft.commands.toList = .ok d.blocks ∧
      d.lines = draft.lines.reverse ∧ d.labels = draft.labels ∧
      ∀ x ∈ draft.commands.toList.flatMap (checkTargets registry name draft.labels),
        x ∈ d.diagnostics := by
  obtain ⟨draft, hdraft, h⟩ := exists_of_bind_ok h
  obtain ⟨blocks, hblocks, h⟩ := exists_of_bind_ok h
  cases h
  refine ⟨draft, hdraft, rfl, rfl, hblocks, rfl, rfl, fun x hx => ?_⟩
  exact List.mem_mergeSort.2 (List.mem_append_right _ hx)

/-- Scripts that were read are outlines, with the links of the outline. -/
theorem exists_outline {waitByDefault : Bool} {name source : String} {d : Document}
    (h : parse registry waitByDefault name source = .ok d) :
    ∃ o : Outline, o.commands = d.commands.toList ∧ ∀ e, e ∈ d.blocks ↔ e ∈ o.links 0 := by
  obtain ⟨draft, -, hc, -, hb, -⟩ := parse_eq_ok h
  obtain ⟨o, ho⟩ := BlockMap.exists_outline_of_ofCommands hb
  refine ⟨o, ho.trans (congrArg Array.toList hc).symm, ?_⟩
  rw [← ho] at hb
  exact BlockMap.mem_ofCommands hb

/-- The links of a script that was read are those of any outline of its commands. -/
theorem block?_of_links {waitByDefault : Bool} {name source : String} {d : Document}
    (h : parse registry waitByDefault name source = .ok d) {o : Outline}
    (ho : o.commands = d.commands.toList) :
    ∀ e ∈ o.links 0, d.block? e.1 = some e.2 := by
  obtain ⟨draft, -, hc, -, hb, -⟩ := parse_eq_ok h
  rw [← hc, ← ho] at hb
  exact fun e he => BlockMap.get?_of_mem (o.links_ordered 0) (BlockMap.mem_ofCommands hb) he

theorem staged_of_parse (hr : registry.Sound) {waitByDefault : Bool} {name source : String}
    {d : Document} (h : parse registry waitByDefault name source = .ok d) :
    d.name = name ∧ d.Staged registry := by
  obtain ⟨draft, hdraft, hc, hname, -⟩ := parse_eq_ok h
  obtain ⟨o, -, hlinks⟩ := exists_outline h
  refine ⟨hname, ?_, fun i link hi => ?_⟩
  · rw [hc]
    exact known_readLines hr hdraft fun c hc => by cases hc
  · have hmem := o.mem_links ((hlinks _).1 (BlockMap.mem_of_get? hi))
    dsimp only at hmem
    omega

theorem parsed_of_parse {waitByDefault : Bool} {name source : String} {d : Document}
    (h : parse registry waitByDefault name source = .ok d) : d.Parsed registry := by
  obtain ⟨-, -, -, rfl, -⟩ := parse_eq_ok h
  exact ⟨waitByDefault, source, h⟩

end Document

namespace ScriptLibrary

variable {source : Source}

/-- A library that holds scripts as they were read. -/
def Sound (registry : Registry) (l : ScriptLibrary) : Prop :=
  ∀ name d, l.get? name = some d → d.name = name ∧ d.Staged registry

theorem sound_empty (registry : Registry) (root : String) (waitByDefault : Bool) :
    (empty root waitByDefault).Sound registry := by
  intro name d h
  cases h

theorem Sound.insert {l k : ScriptLibrary} {registry : Registry} (hr : registry.Sound)
    (hl : l.Sound registry) {name text : String} {d : Document}
    (h : l.insert registry name text = .ok (d, k)) :
    k.Sound registry ∧ d.name = name ∧ d.Staged registry := by
  unfold ScriptLibrary.insert at h
  cases hp : Document.parse registry l.waitByDefault name text with
  | error e =>
    rw [hp] at h
    cases h
  | ok d' =>
    rw [hp] at h
    cases h
    have hd := Document.staged_of_parse hr hp
    refine ⟨fun other d' hd' => ?_, hd⟩
    have hget := NameMap.get?_insert l.documents name other d
    rw [show (l.documents.insert name d).get? other = some d' from hd'] at hget
    split at hget
    · rename_i hname
      cases hget
      exact hname ▸ hd
    · exact hl other d' hget.symm

theorem Sound.reload {l k : ScriptLibrary} (hr : source.registry.Sound)
    (hl : l.Sound source.registry) {name : String} {d : Document}
    (h : l.reload source name = .ok (d, k)) :
    k.Sound source.registry ∧ d.name = name ∧ d.Staged source.registry := by
  unfold ScriptLibrary.reload at h
  cases hres : source.resources.resolve source.files (l.path name) with
  | error e =>
    rw [hres] at h
    cases h
  | ok r =>
    rw [hres] at h
    cases ht : r.text with
    | error e => simp [ht] at h
    | ok text =>
      simp only [ht] at h
      exact hl.insert hr h

theorem parsed_of_insert {l k : ScriptLibrary} {registry : Registry} {name text : String}
    {d : Document} (h : l.insert registry name text = .ok (d, k)) : d.Parsed registry := by
  unfold ScriptLibrary.insert at h
  cases hp : Document.parse registry l.waitByDefault name text with
  | error e =>
    rw [hp] at h
    cases h
  | ok d' =>
    rw [hp] at h
    cases h
    exact Document.parsed_of_parse hp

theorem parsed_of_reload {l k : ScriptLibrary} {name : String} {d : Document}
    (h : l.reload source name = .ok (d, k)) : d.Parsed source.registry := by
  unfold ScriptLibrary.reload at h
  cases hres : source.resources.resolve source.files (l.path name) with
  | error e =>
    rw [hres] at h
    cases h
  | ok r =>
    rw [hres] at h
    cases ht : r.text with
    | error e => simp [ht] at h
    | ok text =>
      simp only [ht] at h
      exact parsed_of_insert h

/-- Whatever a sound library loads was read. -/
theorem Sound.load {l k : ScriptLibrary} (hr : source.registry.Sound)
    (hl : l.Sound source.registry) {name : String} {d : Document}
    (h : l.load source name = .ok (d, k)) :
    k.Sound source.registry ∧ d.name = name ∧ d.Staged source.registry := by
  unfold ScriptLibrary.load at h
  cases hg : l.get? name with
  | some d' =>
    rw [hg] at h
    cases h
    exact ⟨hl, hl name d hg⟩
  | none =>
    rw [hg] at h
    exact hl.reload hr h

end ScriptLibrary

end Playhead
