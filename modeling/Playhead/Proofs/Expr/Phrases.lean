import Playhead.Proofs.Expr.Grammar
import Playhead.Proofs.Expr.Spelling

/-!
Texts as expressions: a text is read as the expression that its tokens derive, and what its string
literals hold does not decide whether they derive one.
-/

namespace Playhead

namespace Expr

open Token

variable {ts us : List Token} {e : Expr}

theorem parse_eq_ok_iff {source : String} :
    parse source = .ok e ↔ ∃ ts, Scans source.toList ts ∧ ofTokens ts = .ok e := by
  unfold parse scanTokens
  constructor
  · intro h
    obtain ⟨ts, hts, he⟩ := exists_of_bind_ok (exists_of_mapError_ok h)
    exact ⟨ts, scan_eq_ok_iff.1 (exists_of_mapError_ok hts), he⟩
  · rintro ⟨ts, hts, he⟩
    rw [scan_eq_ok_iff.2 hts]
    show (ofTokens ts).mapError _ = _
    rw [he]
    rfl

theorem ofTokens_eq_ok_iff : ofTokens ts = .ok e ↔ takeTokens ts = .ok (e, []) := by
  unfold ofTokens
  constructor
  · intro h
    obtain ⟨⟨e', rest⟩, htake, hend⟩ := exists_of_bind_ok h
    cases rest with
    | nil =>
      cases hend
      exact htake
    | cons t rest => cases hend
  · intro h
    rw [h]
    rfl

theorem phrase_of_ofTokens (h : ofTokens ts = .ok e) : Phrase .or ts e := by
  obtain ⟨us, hus, hphrase⟩ := (reads_rule _).sound (ofTokens_eq_ok_iff.1 h)
  rwa [hus, List.append_nil]

theorem ofTokens_of_phrase (h : Phrase .or ts e) : ofTokens ts = .ok e := by
  have hread : rule (ts.length + 1) (ts ++ []) = .ok (e, []) :=
    (reads_rule (ts.length + 1)).complete h (Nat.lt_succ_self _) trivial
  rw [List.append_nil] at hread
  exact ofTokens_eq_ok_iff.2 hread

end Expr

namespace Token

variable {P : List Char → List Char → Prop} {ts us vs : List Token} {e : Expr} {l : Expr.Level}

theorem eq_of_sameBut (h : List.Forall₂ (SameBut Eq) ts us) : ts = us := by
  induction h with
  | nil => rfl
  | cons hsame h ih =>
    cases hsame with
    | same => rw [ih]
    | text heq => rw [heq, ih]

theorem exists_forall₂_append (h : List.Forall₂ (SameBut P) (ts ++ us) vs) :
    ∃ ts' us', vs = ts' ++ us' ∧ List.Forall₂ (SameBut P) ts ts' ∧
      List.Forall₂ (SameBut P) us us' := by
  induction ts generalizing vs with
  | nil => exact ⟨[], vs, rfl, .nil, h⟩
  | cons t ts ih =>
    cases h with
    | cons ht h =>
      obtain ⟨ts', us', rfl, hts, hus⟩ := ih h
      exact ⟨_ :: ts', us', rfl, .cons ht hts, hus⟩

/-- A token that is no text stands in both lists. -/
theorem exists_forall₂_cons {t : Token} (h : List.Forall₂ (SameBut P) (t :: ts) us)
    (ht : ∀ s, t ≠ .text s) : ∃ us', us = t :: us' ∧ List.Forall₂ (SameBut P) ts us' := by
  cases h with
  | cons hsame h =>
    cases hsame with
    | same => exact ⟨_, rfl, h⟩
    | text => exact absurd rfl (ht _)

theorem exists_forall₂_singleton {t : Token} (h : List.Forall₂ (SameBut P) [t] us)
    (ht : ∀ s, t ≠ .text s) : us = [t] := by
  obtain ⟨us', rfl, hnil⟩ := exists_forall₂_cons h ht
  cases hnil
  rfl

theorem exists_separated {args : List (List Token × Expr)}
    (h : ∀ a ∈ args, ∀ {us}, List.Forall₂ (SameBut P) a.1 us → ∃ e, Expr.Phrase .or us e)
    (hvs : List.Forall₂ (SameBut P) (Expr.separated args) vs) :
    ∃ args', args'.length = args.length ∧ vs = Expr.separated args' ∧
      ∀ a ∈ args', Expr.Phrase .or a.1 a.2 := by
  induction args generalizing vs with
  | nil =>
    cases hvs
    exact ⟨[], rfl, rfl, by simp⟩
  | cons a args ih =>
    cases args with
    | nil =>
      rw [Expr.separated_singleton] at hvs
      obtain ⟨e, he⟩ := h a List.mem_cons_self hvs
      exact ⟨[(vs, e)], rfl, (Expr.separated_singleton (vs, e)).symm, by simpa using he⟩
    | cons b args =>
      rw [Expr.separated_cons_cons] at hvs
      obtain ⟨us, vs', rfl, hus, htail⟩ := exists_forall₂_append hvs
      obtain ⟨rest, rfl, hrest⟩ := exists_forall₂_cons htail (by simp)
      obtain ⟨e, he⟩ := h a List.mem_cons_self hus
      obtain ⟨args', hlen, rfl, hall⟩ := ih (fun c hc => h c (List.mem_cons_of_mem a hc)) hrest
      obtain ⟨c, args', rfl⟩ := List.exists_cons_of_length_eq_add_one hlen
      refine ⟨(us, e) :: c :: args', congrArg (· + 1) hlen,
        (Expr.separated_cons_cons (us, e) c args').symm, ?_⟩
      rintro d (_ | ⟨_, hd⟩)
      · exact he
      · exact hall d hd

/-- What the literals of a phrase hold does not make it one. -/
theorem exists_phrase (h : Expr.Phrase l ts e) (hts : List.Forall₂ (SameBut P) ts us) :
    ∃ e', Expr.Phrase l us e' := by
  induction h generalizing us with
  | single hm h ih =>
    obtain ⟨e', he'⟩ := ih hts
    exact ⟨e', .single hm he'⟩
  | chain op hop hl hm ha hb iha ihb =>
    obtain ⟨ts', vs, rfl, hts', hvs⟩ := exists_forall₂_append hts
    obtain ⟨us', rfl, hus'⟩ := exists_forall₂_cons hvs (by simp)
    obtain ⟨a', ha'⟩ := iha hts'
    obtain ⟨b', hb'⟩ := ihb hus'
    exact ⟨_, .chain op hop hl hm ha' hb'⟩
  | compare op hop ha hb iha ihb =>
    obtain ⟨ts', vs, rfl, hts', hvs⟩ := exists_forall₂_append hts
    obtain ⟨us', rfl, hus'⟩ := exists_forall₂_cons hvs (by simp)
    obtain ⟨a', ha'⟩ := iha hts'
    obtain ⟨b', hb'⟩ := ihb hus'
    exact ⟨_, .compare op hop ha' hb'⟩
  | not h ih =>
    obtain ⟨us, rfl, hus⟩ := exists_forall₂_cons hts (by simp)
    obtain ⟨e', he'⟩ := ih hus
    exact ⟨_, .not he'⟩
  | neg h ih =>
    obtain ⟨us, rfl, hus⟩ := exists_forall₂_cons hts (by simp)
    obtain ⟨e', he'⟩ := ih hus
    exact ⟨_, .neg he'⟩
  | number x =>
    rw [exists_forall₂_singleton hts (by simp)]
    exact ⟨_, .number x⟩
  | text s =>
    cases hts with
    | cons hs hts =>
      cases hts
      cases hs <;> exact ⟨_, .text _⟩
  | true =>
    rw [exists_forall₂_singleton hts (by simp)]
    exact ⟨_, .true⟩
  | false =>
    rw [exists_forall₂_singleton hts (by simp)]
    exact ⟨_, .false⟩
  | name hs =>
    rw [exists_forall₂_singleton hts (by simp)]
    exact ⟨_, .name hs⟩
  | call hf args h ih =>
    obtain ⟨us, rfl, hus⟩ := exists_forall₂_cons hts (by simp)
    obtain ⟨vs, rfl, hvs⟩ := exists_forall₂_cons hus (by simp)
    obtain ⟨inside, last, rfl, hinside, hlast⟩ := exists_forall₂_append hvs
    rw [exists_forall₂_singleton hlast (by simp)]
    obtain ⟨args', -, rfl, hall⟩ := exists_separated (fun a ha _ => ih a ha) hinside
    exact ⟨_, .call hf args' hall⟩
  | group h ih =>
    obtain ⟨vs, rfl, hvs⟩ := exists_forall₂_cons hts (by simp)
    obtain ⟨inside, last, rfl, hinside, hlast⟩ := exists_forall₂_append hvs
    rw [exists_forall₂_singleton hlast (by simp)]
    obtain ⟨e', he'⟩ := ih hinside
    exact ⟨_, .group he'⟩

end Token

end Playhead
