/-!
Finite maps from names, kept as one list in the order of the names.

Two maps with the same look-ups are the same map (`NameMap.ext_get?`), so the order in which a map
was filled leaves no trace in it.
-/

namespace Playhead

/-- A finite map from names, listed in increasing order of the names. -/
structure NameMap (α : Type) where
  entries : List (String × α)
  ordered : entries.Pairwise (fun a b => a.1 < b.1)

namespace NameMap

variable {α β : Type}

def empty : NameMap α := ⟨[], .nil⟩

instance : EmptyCollection (NameMap α) := ⟨empty⟩

instance : Inhabited (NameMap α) := ⟨empty⟩

def find? (name : String) : List (String × α) → Option α
  | [] => none
  | (k, v) :: rest => if k = name then some v else find? name rest

def get? (m : NameMap α) (name : String) : Option α :=
  find? name m.entries

def contains (m : NameMap α) (name : String) : Bool :=
  (m.get? name).isSome

/-- Puts a value at its place in an ordered list, over an earlier value of the same name. -/
def place (name : String) (value : α) : List (String × α) → List (String × α)
  | [] => [(name, value)]
  | (k, v) :: rest =>
    if name < k then (name, value) :: (k, v) :: rest
    else if k = name then (name, value) :: rest
    else (k, v) :: place name value rest

theorem mem_place {name : String} {value : α} {l : List (String × α)} {e : String × α}
    (h : e ∈ place name value l) : e = (name, value) ∨ e ∈ l := by
  induction l with
  | nil => simpa [place] using h
  | cons a rest ih =>
    simp only [place] at h
    split at h
    · simpa using h
    · split at h
      · rcases List.mem_cons.1 h with h | h
        · exact .inl h
        · exact .inr (List.mem_cons_of_mem _ h)
      · rcases List.mem_cons.1 h with h | h
        · exact .inr (by simp [h])
        · rcases ih h with h | h
          · exact .inl h
          · exact .inr (List.mem_cons_of_mem _ h)

theorem place_ordered (name : String) (value : α) {l : List (String × α)}
    (h : l.Pairwise (fun a b => a.1 < b.1)) :
    (place name value l).Pairwise (fun a b => a.1 < b.1) := by
  induction l with
  | nil => simp [place]
  | cons a rest ih =>
    obtain ⟨k, v⟩ := a
    have ha := (List.pairwise_cons.1 h).1
    have hr := (List.pairwise_cons.1 h).2
    simp only [place]
    split
    · rename_i hlt
      refine List.pairwise_cons.2 ⟨fun e he => ?_, h⟩
      rcases List.mem_cons.1 he with he | he
      · exact he ▸ hlt
      · exact String.lt_trans hlt (ha e he)
    · split
      · rename_i heq
        exact List.pairwise_cons.2 ⟨fun e he => heq ▸ ha e he, hr⟩
      · rename_i hlt hne
        refine List.pairwise_cons.2 ⟨fun e he => ?_, ih hr⟩
        rcases mem_place he with he | he
        · subst he
          exact Decidable.byContradiction fun hk =>
            hne (String.le_antisymm (String.not_lt.1 hlt) (String.not_lt.1 hk))
        · exact ha e he

def insert (m : NameMap α) (name : String) (value : α) : NameMap α :=
  ⟨place name value m.entries, place_ordered name value m.ordered⟩

def filter (m : NameMap α) (p : String → α → Bool) : NameMap α :=
  ⟨m.entries.filter fun e => p e.1 e.2, m.ordered.filter _⟩

def erase (m : NameMap α) (name : String) : NameMap α :=
  m.filter fun k _ => k != name

/-- Later pairs win over earlier ones of the same name. -/
def ofList (l : List (String × α)) : NameMap α :=
  l.foldl (fun m e => m.insert e.1 e.2) empty

def keys (m : NameMap α) : List String :=
  m.entries.map (·.1)

def size (m : NameMap α) : Nat :=
  m.entries.length

def isEmpty (m : NameMap α) : Bool :=
  m.entries.isEmpty

theorem get?_empty (name : String) : (empty : NameMap α).get? name = none := rfl

theorem find?_place (name key : String) (value : α) (l : List (String × α)) :
    find? key (place name value l) = if name = key then some value else find? key l := by
  induction l with
  | nil => simp [place, find?]
  | cons a rest ih => simp only [place]; split <;> (try split) <;> grind [find?]

theorem get?_insert (m : NameMap α) (name key : String) (value : α) :
    (m.insert name value).get? key = if name = key then some value else m.get? key :=
  find?_place name key value m.entries

theorem find?_eq_none {key : String} {l : List (String × α)}
    (h : ∀ e ∈ l, e.1 ≠ key) : find? key l = none := by
  induction l with
  | nil => rfl
  | cons a rest ih => grind [find?]

theorem find?_eq_some_iff {key : String} {value : α} {l : List (String × α)}
    (h : l.Pairwise (fun a b => a.1 < b.1)) :
    find? key l = some value ↔ (key, value) ∈ l := by
  induction l with
  | nil => simp [find?]
  | cons a rest ih =>
    obtain ⟨k, v⟩ := a
    have ha := (List.pairwise_cons.1 h).1
    have hr := (List.pairwise_cons.1 h).2
    simp only [find?, List.mem_cons, Prod.mk.injEq]
    split
    · rename_i hk
      subst hk
      constructor
      · intro hv
        exact .inl ⟨rfl, (Option.some.inj hv).symm⟩
      · rintro (⟨_, hv⟩ | hv)
        · rw [hv]
        · exact absurd (ha _ hv) (String.lt_irrefl _)
    · rename_i hk
      rw [ih hr]
      constructor
      · exact .inr
      · rintro (⟨hk', _⟩ | hv)
        · exact absurd hk'.symm hk
        · exact hv

theorem get?_eq_some_iff {m : NameMap α} {key : String} {value : α} :
    m.get? key = some value ↔ (key, value) ∈ m.entries :=
  find?_eq_some_iff m.ordered

theorem eq_of_mem_iff {l r : List (String × α)}
    (hl : l.Pairwise (fun a b => a.1 < b.1)) (hr : r.Pairwise (fun a b => a.1 < b.1))
    (h : ∀ e, e ∈ l ↔ e ∈ r) : l = r := by
  induction l generalizing r with
  | nil =>
    cases r with
    | nil => rfl
    | cons b r => exact absurd ((h b).2 (by simp)) (by simp)
  | cons a l ih =>
    cases r with
    | nil => exact absurd ((h a).1 (by simp)) (by simp)
    | cons b r =>
      have hal := (List.pairwise_cons.1 hl).1
      have hbr := (List.pairwise_cons.1 hr).1
      have hab : a = b := by
        rcases List.mem_cons.1 ((h a).1 (by simp)) with hab | hab
        · exact hab
        · rcases List.mem_cons.1 ((h b).2 (by simp)) with hba | hba
          · exact hba.symm
          · exact absurd (String.lt_trans (hbr a hab) (hal b hba)) (String.lt_irrefl _)
      subst hab
      congr 1
      refine ih (List.pairwise_cons.1 hl).2 (List.pairwise_cons.1 hr).2 fun e => ?_
      constructor
      · intro he
        rcases List.mem_cons.1 ((h e).1 (List.mem_cons_of_mem _ he)) with hea | hea
        · exact absurd (hea ▸ hal e he) (String.lt_irrefl _)
        · exact hea
      · intro he
        rcases List.mem_cons.1 ((h e).2 (List.mem_cons_of_mem _ he)) with hea | hea
        · exact absurd (hea ▸ hbr e he) (String.lt_irrefl _)
        · exact hea

theorem ext_get? {m n : NameMap α} (h : ∀ key, m.get? key = n.get? key) : m = n := by
  obtain ⟨l, hl⟩ := m
  obtain ⟨r, hr⟩ := n
  have : l = r := eq_of_mem_iff hl hr fun e => by
    have he := h e.1
    simp only [get?] at he
    rw [← find?_eq_some_iff hl, ← find?_eq_some_iff hr, he]
  subst this
  rfl

end NameMap

end Playhead
