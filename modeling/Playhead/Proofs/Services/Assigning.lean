import Playhead.Command.Task
import Playhead.Proofs.Except

/-!
Assignments that are applied together.

They are evaluated over a layer of values that are not stored yet, and stored once all of them have
a value. Main statement: this is the same as storing one after the other, and if one of them has no
value nothing is stored at all.
-/

namespace Playhead

namespace VariableStore

/-- The variables of the game, or the global ones. -/
def half (s : VariableStore) (global : Bool) : NameMap Value :=
  if global then s.global else s.game

variable {s t : VariableStore} {m : NameMap Value}

theorem ext_half (h : ∀ b, s.half b = t.half b) : s = t := by
  cases s
  cases t
  have hgame := h false
  have hglobal := h true
  simp_all [half]

theorem get?_eq (s : VariableStore) (name : String) :
    s.get? name = (s.half (isGlobal name)).get? name := by
  simp only [get?, half]
  split <;> rfl

theorem half_set (s : VariableStore) (name : String) (value : Value) (b : Bool) :
    (s.set name value).half b =
      if isGlobal name = b then (s.half b).insert name value else s.half b := by
  cases b <;> cases h : isGlobal name <;> simp [set, half, h]

/-- What stands in a half after values with distinct names were stored one by one. -/
theorem get?_half_foldl_set {l : List (String × Value)} (hl : l.Pairwise fun a b => a.1 < b.1)
    (s : VariableStore) (b : Bool) (name : String) :
    ((l.foldl (fun s e => s.set e.1 e.2) s).half b).get? name =
      if isGlobal name = b then (NameMap.find? name l).or ((s.half b).get? name)
      else (s.half b).get? name := by
  induction l generalizing s with
  | nil => simp [NameMap.find?]
  | cons e rest ih =>
    obtain ⟨key, value⟩ := e
    obtain ⟨hkey, hrest⟩ := List.pairwise_cons.1 hl
    rw [List.foldl_cons, ih hrest, half_set]
    by_cases hname : key = name
    · subst hname
      have hnone : NameMap.find? key rest = none :=
        NameMap.find?_eq_none fun e he heq => String.lt_irrefl _ (heq ▸ hkey e he)
      by_cases hb : isGlobal key = b
      · simp [hb, hnone, NameMap.find?, NameMap.get?_insert]
      · simp [hb]
    · by_cases hb : isGlobal key = b
      · simp [hb, hname, NameMap.find?, NameMap.get?_insert]
      · simp [hb, hname, NameMap.find?]

theorem get?_half_commit (s : VariableStore) (m : NameMap Value) (b : Bool) (name : String) :
    ((s.commit m).half b).get? name =
      if isGlobal name = b then (m.get? name).or ((s.half b).get? name)
      else (s.half b).get? name :=
  get?_half_foldl_set m.ordered s b name

/-- A value reads the same over a layer as after the layer is stored. -/
theorem under_eq (s : VariableStore) (m : NameMap Value) : s.under m = (s.commit m).get? := by
  funext name
  rw [get?_eq, get?_half_commit, if_pos rfl, under, get?_eq]

/-- A value that is laid over the others is stored last. -/
theorem commit_insert (s : VariableStore) (m : NameMap Value) (name : String) (value : Value) :
    s.commit (m.insert name value) = (s.commit m).set name value := by
  apply ext_half
  intro b
  apply NameMap.ext_get?
  intro key
  rw [half_set, get?_half_commit]
  by_cases hb : isGlobal name = b
  · rw [if_pos hb, NameMap.get?_insert, NameMap.get?_insert, get?_half_commit]
    by_cases hkey : name = key
    · subst hkey
      simp [hb]
    · simp [hkey]
  · rw [if_neg hb, get?_half_commit, NameMap.get?_insert]
    by_cases hkey : name = key
    · subst hkey
      simp [hb]
    · simp [hkey]

theorem commit_empty (s : VariableStore) : s.commit .empty = s := rfl

theorem stage_cons (s : VariableStore) (m : NameMap Value) (a : Assignment)
    (rest : List Assignment) : s.stage m (a :: rest) =
      a.resolve (s.under m a.target) (s.under m) >>= fun value =>
        s.stage (m.insert a.target value) rest := rfl

/-- An assignment by itself stores its value. -/
theorem apply_one (s : VariableStore) (a : Assignment) :
    s.apply [a] = (a.resolve (s.get? a.target) s.get?).map (s.set a.target) := by
  unfold apply
  rw [stage_cons, under_eq, commit_empty]
  cases a.resolve (s.get? a.target) s.get? with
  | error e => rfl
  | ok value =>
    show Except.ok (s.commit (NameMap.empty.insert a.target value)) = _
    rw [commit_insert, commit_empty]
    rfl

/-- Applies assignments one after the other, each by itself. -/
def applyEach (s : VariableStore) (l : List Assignment) : Except ExprError VariableStore :=
  l.foldlM (fun t a => t.apply [a]) s

/-- Over any layer, storing at the end is the same as storing one after the other. -/
theorem map_commit_stage (s : VariableStore) (m : NameMap Value) (l : List Assignment) :
    (s.stage m l).map s.commit = (s.commit m).applyEach l := by
  induction l generalizing m with
  | nil => rfl
  | cons a rest ih =>
    rw [applyEach, List.foldlM_cons, stage_cons, apply_one, under_eq]
    cases a.resolve ((s.commit m).get? a.target) (s.commit m).get? with
    | error e => rfl
    | ok value =>
      show (s.stage (m.insert a.target value) rest).map s.commit =
        ((s.commit m).set a.target value).applyEach rest
      rw [ih, commit_insert]

theorem apply_eq_applyEach (s : VariableStore) (l : List Assignment) :
    s.apply l = s.applyEach l :=
  map_commit_stage s .empty l

/-- Assignments applied together store what they store one after the other. They fail as the first
one that has no value, and then a command that applies them leaves everything as it is. -/
theorem apply_sequential (s : VariableStore) (l : List Assignment) (services : ServiceSet) :
    s.apply l = s.applyEach l ∧
    (∀ e, s.apply l = .error e ↔ ∃ before a rest between, l = before ++ a :: rest ∧
      s.applyEach before = .ok between ∧ between.apply [a] = .error e) ∧
    Task.stepAssign { services with variableStore := some s } l =
      match s.applyEach l with
      | .ok after => (.completed {}, { services with variableStore := some after })
      | .error e => (.faulted (.expr e), { services with variableStore := some s }) := by
  have heach := apply_eq_applyEach s l
  refine ⟨heach, fun e => ?_, ?_⟩
  · rw [heach]
    exact foldlM_eq_error_iff
  · simp only [Task.stepAssign, heach]
    cases s.applyEach l <;> rfl

end VariableStore

end Playhead
