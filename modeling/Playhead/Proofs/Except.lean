/-!
Taking apart computations that may fail.
-/

namespace Playhead

theorem exists_of_bind_ok {ε α β : Type} {x : Except ε α} {f : α → Except ε β} {b : β}
    (h : (x >>= f) = .ok b) : ∃ a, x = .ok a ∧ f a = .ok b := by
  cases x with
  | error e => cases h
  | ok a => exact ⟨a, rfl, h⟩

theorem exists_of_map_ok {ε α β : Type} {x : Except ε α} {f : α → β} {b : β}
    (h : x.map f = .ok b) : ∃ a, x = .ok a ∧ f a = b := by
  cases x with
  | error e => cases h
  | ok a => exact ⟨a, rfl, Except.ok.inj h⟩

theorem exists_of_mapError_ok {ε ε' α : Type} {x : Except ε α} {f : ε → ε'} {a : α}
    (h : x.mapError f = .ok a) : x = .ok a := by
  cases x with
  | error e => cases h
  | ok a' =>
    cases h
    rfl

theorem eq_ok_of_toOption {ε α : Type} {x : Except ε α} {a : α} (h : x.toOption = some a) :
    x = .ok a := by
  cases x with
  | error e => cases h
  | ok a' =>
    cases h
    rfl

/-- A computation over a list fails at the first step that fails. -/
theorem foldlM_eq_error_iff {ε α β : Type} {f : β → α → Except ε β} {l : List α} {b : β}
    {e : ε} : l.foldlM f b = .error e ↔
      ∃ before a rest b', l = before ++ a :: rest ∧ before.foldlM f b = .ok b' ∧
        f b' a = .error e := by
  induction l generalizing b with
  | nil =>
    constructor
    · intro h
      cases h
    · rintro ⟨before, a, rest, b', h, -⟩
      simp at h
  | cons x l ih =>
    rw [List.foldlM_cons]
    cases hx : f b x with
    | error e' =>
      constructor
      · intro h
        cases h
        exact ⟨[], x, l, b, rfl, rfl, hx⟩
      · rintro ⟨before, a, rest, b', h, hok, herr⟩
        cases before with
        | nil =>
          cases h
          cases hok
          exact hx.symm.trans herr
        | cons y before =>
          cases h
          rw [List.foldlM_cons, hx] at hok
          cases hok
    | ok c =>
      show l.foldlM f c = .error e ↔ _
      rw [ih]
      constructor
      · rintro ⟨before, a, rest, b', rfl, hok, herr⟩
        refine ⟨x :: before, a, rest, b', rfl, ?_, herr⟩
        rw [List.foldlM_cons, hx]
        exact hok
      · rintro ⟨before, a, rest, b', h, hok, herr⟩
        cases before with
        | nil =>
          cases h
          cases hok
          cases hx.symm.trans herr
        | cons y before =>
          cases h
          rw [List.foldlM_cons, hx] at hok
          exact ⟨before, a, rest, b', rfl, hok, herr⟩

end Playhead
