import Playhead.Service.Set

/-!
Records of the game are read back as they were written.
-/

namespace Playhead

namespace NameMap

variable {α : Type}

theorem get?_foldl_insert (name : String) {l : List (String × α)}
    (h : l.Pairwise fun a b => a.1 < b.1) (m : NameMap α) :
    (l.foldl (fun m e => m.insert e.1 e.2) m).get? name = (find? name l).or (m.get? name) := by
  induction l generalizing m with
  | nil => rfl
  | cons e rest ih =>
    obtain ⟨hlt, hrest⟩ := List.pairwise_cons.1 h
    rw [List.foldl_cons, ih hrest, get?_insert]
    by_cases hname : e.1 = name
    · have hnone : find? name rest = none := by
        refine find?_eq_none fun f hf heq => ?_
        have hef := hlt f hf
        rw [hname, heq] at hef
        exact String.lt_irrefl name hef
      rw [hnone, if_pos hname]
      show _ = (if e.1 = name then some e.2 else find? name rest).or _
      rw [if_pos hname]
      rfl
    · rw [if_neg hname]
      show _ = (if e.1 = name then some e.2 else find? name rest).or _
      rw [if_neg hname]

/-- A map is read back from its entries. -/
theorem ofList_entries (m : NameMap α) : ofList m.entries = m := by
  apply ext_get?
  intro name
  unfold ofList
  rw [get?_foldl_insert name m.ordered]
  exact Option.or_none

end NameMap

/-- Reading back what was written item by item. -/
theorem mapM_map_eq {α β : Type} {write : α → β} {read : β → Option α} {l : List α}
    (h : ∀ a ∈ l, read (write a) = some a) : (l.map write).mapM read = some l := by
  induction l with
  | nil => rfl
  | cons a rest ih =>
    rw [List.map_cons, List.mapM_cons, h a List.mem_cons_self,
      ih fun b hb => h b (List.mem_cons_of_mem _ hb)]
    rfl

theorem fields?_ofFields (names : List String) (fields : List (String × Json)) :
    (Json.ofFields fields).fields? names =
      some (names.map fun name => (NameMap.ofList fields).get? name) := rfl

namespace Value

/-- A value that has a text of its own in JSON. -/
def IsFinite : Value → Prop
  | .number x => x.isFinite = true
  | _ => True

theorem ofJson?_toJson {v : Value} (h : v.IsFinite) : ofJson? v.toJson = some v := by
  cases v with
  | bool b => rfl
  | text s => rfl
  | number x =>
    have hx : toJson (.number x) = .number x := if_pos h
    rw [hx]
    rfl

theorem mapOfJson?_mapToJson {m : NameMap Value} (h : ∀ e ∈ m.entries, e.2.IsFinite) :
    mapOfJson? (mapToJson m) = some m := by
  have hread : (m.entries.map fun e => (e.1, e.2.toJson)).mapM
      (fun e : String × Json => do some (e.1, ← ofJson? e.2)) = some m.entries := by
    apply mapM_map_eq
    intro e he
    show (ofJson? e.2.toJson).bind (fun v => some (e.1, v)) = some e
    rw [ofJson?_toJson (h e he)]
    rfl
  unfold mapOfJson? mapToJson
  show ((m.entries.map fun e : String × Value => (e.1, e.2.toJson)).mapM
    (fun e : String × Json => do some (e.1, ← ofJson? e.2))).bind
      (fun values => some (NameMap.ofList values)) = _
  rw [hread]
  exact congrArg some m.ofList_entries

end Value

theorem LogEntry.ofJson?_toJson (e : LogEntry) : ofJson? e.toJson = some e := by
  obtain ⟨author, text⟩ := e
  unfold ofJson? toJson
  rw [fields?_ofFields]
  cases author <;>
    simp [NameMap.ofList, NameMap.get?_insert, NameMap.get?_empty, Json.optionalText?]

theorem TextLog.ofJson?_toJson (l : TextLog) : ofJson? l.toJson = some l := by
  have hread : (l.entries.map LogEntry.toJson).mapM LogEntry.ofJson? = some l.entries :=
    mapM_map_eq fun e _ => LogEntry.ofJson?_toJson e
  show ((l.entries.map LogEntry.toJson).mapM LogEntry.ofJson?).bind
    (fun entries => some (⟨entries.reverse⟩ : TextLog)) = some l
  rw [hread]
  unfold entries
  simp

theorem ChoiceOption.ofJson?_toJson (o : ChoiceOption) : ofJson? o.toJson = some o := by
  obtain ⟨text, goto, set, script⟩ := o
  unfold ofJson? toJson
  rw [fields?_ofFields]
  cases goto <;> cases set <;> cases script <;>
    simp [NameMap.ofList, NameMap.get?_insert, NameMap.get?_empty, Json.optionalText?]

theorem Choices.ofJson?_toJson (k : Choices) : ofJson? k.toJson = some k := by
  have hread : (k.pending.map ChoiceOption.toJson).mapM ChoiceOption.ofJson? = some k.pending :=
    mapM_map_eq fun o _ => ChoiceOption.ofJson?_toJson o
  show ((k.pending.map ChoiceOption.toJson).mapM ChoiceOption.ofJson?).bind
    (fun pending => some (⟨pending⟩ : Choices)) = some k
  rw [hread]
  rfl

theorem word?_int {n : Nat} (h : n < Decimal.twoTo 64) : (Json.int n).word? = some n := by
  unfold Json.word? Json.below? Json.nat?
  simp [h]

theorem Spot.ofJson?_toJson {s : Spot} (h : s.index < Decimal.twoTo 64) :
    ofJson? s.toJson = some s := by
  obtain ⟨script, index⟩ := s
  unfold ofJson? toJson
  rw [fields?_ofFields]
  simp [NameMap.ofList, NameMap.get?_insert, NameMap.get?_empty, word?_int h]

theorem CallStack.ofJson?_toJson {k : CallStack}
    (h : ∀ s ∈ k.frames, s.index < Decimal.twoTo 64) : ofJson? k.toJson = some k := by
  have hread : (k.frames.map Spot.toJson).mapM Spot.ofJson? = some k.frames :=
    mapM_map_eq fun s hs => Spot.ofJson?_toJson (h s hs)
  show ((k.frames.map Spot.toJson).mapM Spot.ofJson?).bind
    (fun frames => some (⟨frames⟩ : CallStack)) = some k
  rw [hread]
  rfl

/-- If each item can only be read back as it was written, so can a list of them. -/
theorem eq_of_mapM_map {α β : Type} {write : α → β} {read : β → Option α} {l m : List α}
    (h : ∀ a ∈ l, ∀ b, read (write a) = some b → b = a)
    (hm : (l.map write).mapM read = some m) : m = l := by
  induction l generalizing m with
  | nil => exact (Option.some.inj hm).symm
  | cons a rest ih =>
    rw [List.map_cons, List.mapM_cons] at hm
    obtain ⟨b, hb, hm⟩ := Option.bind_eq_some_iff.1 hm
    obtain ⟨n, hn, hm⟩ := Option.bind_eq_some_iff.1 hm
    cases hm
    rw [h a List.mem_cons_self b hb, ih (fun c hc => h c (List.mem_cons_of_mem _ hc)) hn]

/-- A number without a text of its own is written as `null`, which is no value. -/
theorem Value.isFinite_of_ofJson? {u v : Value} (h : ofJson? v.toJson = some u) :
    v.IsFinite := by
  cases v with
  | bool b => exact trivial
  | text s => exact trivial
  | number x =>
    cases hx : x.isFinite with
    | true => exact hx
    | false =>
      have hnull : toJson (.number x) = .null := if_neg (by simp [hx])
      rw [hnull] at h
      cases h

theorem Value.eq_of_ofJson? {u v : Value} (h : ofJson? v.toJson = some u) : u = v := by
  rw [ofJson?_toJson (isFinite_of_ofJson? h)] at h
  exact (Option.some.inj h).symm

/-- What is read of a list was read of each of its items. -/
theorem exists_of_mapM {α β : Type} {read : α → Option β} {l : List α} {m : List β}
    (h : l.mapM read = some m) : ∀ a ∈ l, ∃ b, read a = some b := by
  induction l generalizing m with
  | nil => exact fun a ha => absurd ha List.not_mem_nil
  | cons a rest ih =>
    rw [List.mapM_cons] at h
    obtain ⟨b, hb, h⟩ := Option.bind_eq_some_iff.1 h
    obtain ⟨n, hn, -⟩ := Option.bind_eq_some_iff.1 h
    exact List.forall_mem_cons.2 ⟨⟨b, hb⟩, ih hn⟩

/-- Values are read back together only if all of them can be. -/
theorem Value.finite_of_mapOfJson? {m n : NameMap Value}
    (h : mapOfJson? (mapToJson m) = some n) : ∀ e ∈ m.entries, e.2.IsFinite := by
  intro e he
  obtain ⟨values, hvalues, -⟩ := Option.bind_eq_some_iff.1 (show
    ((m.entries.map fun e : String × Value => (e.1, e.2.toJson)).mapM
      (fun e : String × Json => do some (e.1, ← ofJson? e.2))).bind
        (fun values => some (NameMap.ofList values)) = some n from h)
  obtain ⟨e', he'⟩ := exists_of_mapM hvalues _ (List.mem_map_of_mem he)
  obtain ⟨v, hv, -⟩ := Option.bind_eq_some_iff.1 he'
  exact isFinite_of_ofJson? hv

theorem Value.eq_of_mapOfJson? {m n : NameMap Value} (h : mapOfJson? (mapToJson m) = some n) :
    n = m := by
  obtain ⟨values, hvalues, h⟩ := Option.bind_eq_some_iff.1 (show
    ((m.entries.map fun e : String × Value => (e.1, e.2.toJson)).mapM
      (fun e : String × Json => do some (e.1, ← ofJson? e.2))).bind
        (fun values => some (NameMap.ofList values)) = some n from h)
  have hentries : values = m.entries := by
    refine eq_of_mapM_map (fun e _ e' he => ?_) hvalues
    obtain ⟨u, hu, he⟩ := Option.bind_eq_some_iff.1 he
    cases he
    rw [eq_of_ofJson? hu]
  rw [← Option.some.inj h, hentries]
  exact m.ofList_entries

theorem eq_of_below? {bound n k : Nat} (h : (Json.int n).below? bound = some k) : k = n := by
  have hbelow : (Json.int n).below? bound = if n < bound then some n else none := by
    unfold Json.below? Json.nat?
    simp
  rw [hbelow] at h
  split at h
  · exact (Option.some.inj h).symm
  · cases h

theorem eq_of_word? {n k : Nat} (h : (Json.int n).word? = some k) : k = n :=
  eq_of_below? h

theorem Spot.eq_of_ofJson? {s t : Spot} (h : ofJson? s.toJson = some t) : t = s := by
  obtain ⟨script, index⟩ := s
  unfold ofJson? toJson at h
  rw [fields?_ofFields] at h
  simp [NameMap.ofList, NameMap.get?_insert, NameMap.get?_empty] at h
  obtain ⟨k, hk, h⟩ := Option.bind_eq_some_iff.1 h
  cases h
  rw [eq_of_word? hk]

theorem CallStack.eq_of_ofJson? {k l : CallStack} (h : ofJson? k.toJson = some l) : l = k := by
  obtain ⟨frames, hframes, h⟩ := Option.bind_eq_some_iff.1 (show
    ((k.frames.map Spot.toJson).mapM Spot.ofJson?).bind
      (fun frames => some (⟨frames⟩ : CallStack)) = some l from h)
  cases h
  rw [eq_of_mapM_map (fun s _ t => Spot.eq_of_ofJson?) hframes]

namespace IndexSet

theorem place_of_lt {n : Nat} {l : List Nat} (h : ∀ k ∈ l, k < n) : place n l = l ++ [n] := by
  induction l with
  | nil => rfl
  | cons m rest ih =>
    have hm := h m List.mem_cons_self
    unfold place
    rw [if_neg (by omega), if_neg (by omega), ih fun k hk => h k (List.mem_cons_of_mem _ hk)]
    rfl

/-- A set is made again from its members in order. -/
theorem ofList_items (s : IndexSet) : ofList s.items = s := by
  have hfold : ∀ (l : List Nat) (t : IndexSet), (t.items ++ l).Pairwise (· < ·) →
      (l.foldl insert t).items = t.items ++ l := by
    intro l
    induction l with
    | nil => exact fun t _ => (List.append_nil _).symm
    | cons n rest ih =>
      intro t ht
      have hlast : (t.insert n).items = t.items ++ [n] :=
        place_of_lt fun k hk => (List.pairwise_append.1 ht).2.2 k hk n List.mem_cons_self
      rw [List.foldl_cons, ih, hlast, List.append_assoc]
      · rfl
      · rw [hlast, List.append_assoc]
        exact ht
  have hitems := hfold s.items empty s.ordered
  unfold ofList
  obtain ⟨items, ordered⟩ := s
  cases hr : List.foldl insert empty items with
  | mk items' ordered' =>
    rw [hr] at hitems
    cases hitems
    rfl

theorem ofJson?_toJson {s : IndexSet} (h : ∀ n ∈ s.items, n < Decimal.twoTo 64) :
    ofJson? s.toJson = some s := by
  have hread : (s.items.map fun n : Nat => Json.int n).mapM Json.word? = some s.items :=
    mapM_map_eq fun n hn => word?_int (h n hn)
  show ((s.items.map fun n : Nat => Json.int n).mapM Json.word?).bind
    (fun items => some (ofList items)) = some s
  rw [hread]
  exact congrArg some s.ofList_items

theorem eq_of_ofJson? {s t : IndexSet} (h : ofJson? s.toJson = some t) : t = s := by
  obtain ⟨items, hitems, h⟩ := Option.bind_eq_some_iff.1 (show
    ((s.items.map fun n : Nat => Json.int n).mapM Json.word?).bind
      (fun items => some (ofList items)) = some t from h)
  cases h
  rw [eq_of_mapM_map (fun n _ k => eq_of_word?) hitems, ofList_items]

end IndexSet

theorem Played.ofJson?_toJson {p : Played}
    (h : ∀ e ∈ p.scripts.entries, ∀ n ∈ e.2.items, n < Decimal.twoTo 64) :
    ofJson? p.toJson = some p := by
  have hread : (p.scripts.entries.map fun e : String × IndexSet => (e.1, e.2.toJson)).mapM
      (fun e : String × Json => do some (e.1, ← IndexSet.ofJson? e.2)) =
        some p.scripts.entries := by
    apply mapM_map_eq
    intro e he
    show (IndexSet.ofJson? e.2.toJson).bind (fun set => some (e.1, set)) = some e
    rw [IndexSet.ofJson?_toJson (h e he)]
    rfl
  show ((p.scripts.entries.map fun e : String × IndexSet => (e.1, e.2.toJson)).mapM
    (fun e : String × Json => do some (e.1, ← IndexSet.ofJson? e.2))).bind
      (fun scripts => some (⟨.ofList scripts⟩ : Played)) = some p
  rw [hread]
  show some (⟨.ofList p.scripts.entries⟩ : Played) = some p
  rw [NameMap.ofList_entries]

theorem Played.eq_of_ofJson? {p q : Played} (h : ofJson? p.toJson = some q) : q = p := by
  obtain ⟨scripts, hscripts, h⟩ := Option.bind_eq_some_iff.1 (show
    ((p.scripts.entries.map fun e : String × IndexSet => (e.1, e.2.toJson)).mapM
      (fun e : String × Json => do some (e.1, ← IndexSet.ofJson? e.2))).bind
        (fun scripts => some (⟨.ofList scripts⟩ : Played)) = some q from h)
  have hentries : scripts = p.scripts.entries := by
    refine eq_of_mapM_map (fun e _ e' he => ?_) hscripts
    obtain ⟨t, ht, he⟩ := Option.bind_eq_some_iff.1 he
    cases he
    rw [IndexSet.eq_of_ofJson? ht]
  cases h
  rw [hentries, NameMap.ofList_entries]

theorem Prefs.ofJson?_toJson {p : Prefs} (h : p.autoPlayDelay < Decimal.twoTo 64) :
    ofJson? p.toJson = some p := by
  obtain ⟨mode, delay⟩ := p
  unfold ofJson? toJson
  rw [fields?_ofFields]
  cases mode <;>
    simp [NameMap.ofList, NameMap.get?_insert, NameMap.get?_empty, word?_int h,
      Json.caseName?, SkipMode.name, SkipMode.ofName?]

theorem Prefs.eq_of_ofJson? {p q : Prefs} (h : ofJson? p.toJson = some q) : q = p := by
  obtain ⟨mode, delay⟩ := p
  unfold ofJson? toJson at h
  rw [fields?_ofFields] at h
  cases mode <;>
    simp [NameMap.ofList, NameMap.get?_insert, NameMap.get?_empty, Json.caseName?,
      SkipMode.name, SkipMode.ofName?] at h
  all_goals
    obtain ⟨n, hn, h⟩ := Option.bind_eq_some_iff.1 h
    cases h
    rw [eq_of_word? hn]

end Playhead
