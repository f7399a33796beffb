import Playhead.Expr.Parser
import Playhead.Proofs.Except

/-!
The grammar of expressions, and that tokens are read as an expression exactly if they derive it.

Phrases come in seven levels. A phrase of the level of a binary operator consists of phrases of the
next level; what it may not be followed by, if it is to be read to its end and no further, are an
opening parenthesis and the signs of its own level and of those below.
-/

namespace Playhead

namespace Expr

/-- The levels of phrases. Phrases of a later level bind tighter. -/
inductive Level where
  | or | and | compare | add | mul | unary | primary
deriving DecidableEq, Repr

namespace Level

/-- The next level, of which the phrases of a level are made. -/
def next? : Level → Option Level
  | .or => some .and
  | .and => some .compare
  | .compare => some .add
  | .add => some .mul
  | .mul => some .unary
  | .unary => some .primary
  | .primary => none

def rank : Level → Nat
  | .or => 0
  | .and => 1
  | .compare => 2
  | .add => 3
  | .mul => 4
  | .unary => 5
  | .primary => 6

theorem rank_next {l m : Level} (h : l.next? = some m) : m.rank = l.rank + 1 := by
  cases l <;> cases h <;> rfl

end Level

end Expr

/-- The level of the phrases that an operator makes. -/
def BinaryOp.level : BinaryOp → Expr.Level
  | .or => .or
  | .and => .and
  | .eq | .ne | .lt | .le | .gt | .ge => .compare
  | .add | .sub => .add
  | .mul | .div | .rem => .mul

theorem BinaryOp.sign_injective {o p : BinaryOp} (h : o.sign = p.sign) : o = p := by
  cases o <;> cases p <;> first | rfl | cases h

namespace Expr

/-- Names of variables and functions. -/
def IsName (s : String) : Prop :=
  s ≠ "true" ∧ s ≠ "false"

/-- Phrases with commas between them. -/
def separated (args : List (List Token × Expr)) : List Token :=
  [Token.comma].intercalate (args.map (·.1))

/-- Tokens that derive an expression as a phrase of a level. -/
inductive Phrase : Level → List Token → Expr → Prop where
  /-- A phrase of the next level stands for itself. -/
  | single {l m : Level} {ts : List Token} {e : Expr} (hm : l.next? = some m)
      (h : Phrase m ts e) : Phrase l ts e
  /-- Operators of one level associate to the left. -/
  | chain {l m : Level} {ts us : List Token} {a b : Expr} (op : BinaryOp) (hop : op.level = l)
      (hl : l ≠ .compare) (hm : l.next? = some m) (ha : Phrase l ts a) (hb : Phrase m us b) :
      Phrase l (ts ++ .sign op.sign :: us) (.binary op a b)
  /-- Comparisons do not chain. -/
  | compare {ts us : List Token} {a b : Expr} (op : BinaryOp) (hop : op.level = .compare)
      (ha : Phrase .add ts a) (hb : Phrase .add us b) :
      Phrase .compare (ts ++ .sign op.sign :: us) (.binary op a b)
  | not {ts : List Token} {e : Expr} (h : Phrase .unary ts e) :
      Phrase .unary (.sign .not :: ts) (.not e)
  | neg {ts : List Token} {e : Expr} (h : Phrase .unary ts e) :
      Phrase .unary (.sign .sub :: ts) (.neg e)
  | number (x : Float) : Phrase .primary [.number x] (.literal (.number x))
  | text (s : String) : Phrase .primary [.text s] (.literal (.text s))
  | true : Phrase .primary [.name "true"] (.literal (.bool .true))
  | false : Phrase .primary [.name "false"] (.literal (.bool .false))
  | name {s : String} (hs : IsName s) : Phrase .primary [.name s] (.variable s)
  /-- The arguments are separated by commas; there may be none. -/
  | call {f : String} (hf : IsName f) (args : List (List Token × Expr))
      (h : ∀ a ∈ args, Phrase .or a.1 a.2) :
      Phrase .primary (.name f :: .opening :: (separated args ++ [.closing]))
        (.call f (args.map (·.2)))
  | group {ts : List Token} {e : Expr} (h : Phrase .or ts e) :
      Phrase .primary (.opening :: (ts ++ [.closing])) e

/-- What may follow a phrase that is read to its end. -/
def Ends (l : Level) : List Token → Prop
  | .opening :: _ => False
  | .sign s :: _ => ∀ op : BinaryOp, op.sign = s → op.level.rank < l.rank
  | _ => True

/-- A rule takes a phrase of a level off the front, and takes every phrase of fewer than `n` tokens
where it ends. -/
structure Reads (n : Nat) (r : Rule) (l : Level) : Prop where
  sound : ∀ {ts rest : List Token} {e : Expr}, r ts = .ok (e, rest) →
    ∃ us, ts = us ++ rest ∧ Phrase l us e
  complete : ∀ {us rest : List Token} {e : Expr}, Phrase l us e → us.length < n → Ends l rest →
    r (us ++ rest) = .ok (e, rest)

variable {l m : Level} {ts us rest : List Token} {e : Expr} {n : Nat} {operand inner : Rule}

theorem Ends.next (hm : l.next? = some m) (h : Ends l rest) : Ends m rest := by
  have hrank := Level.rank_next hm
  cases rest with
  | nil => trivial
  | cons t rest =>
    cases t with
    | sign s =>
      intro op hop
      have := h op hop
      omega
    | opening => exact h
    | _ => trivial

theorem ends_sign (hm : l.next? = some m) {op : BinaryOp} (hop : op.level = l)
    (rest : List Token) : Ends m (.sign op.sign :: rest) := by
  intro o ho
  rw [BinaryOp.sign_injective ho, hop, Level.rank_next hm]
  exact Nat.lt_succ_self l.rank

/-- A phrase has a first token, which closes no parenthesis. -/
theorem Phrase.head (h : Phrase l ts e) : ∃ t us, ts = t :: us ∧ t ≠ .closing := by
  induction h with
  | single hm h ih => exact ih
  | chain op hop hl hm ha hb iha ihb =>
    obtain ⟨t, us, rfl, ht⟩ := iha
    exact ⟨t, _, rfl, ht⟩
  | compare op hop ha hb iha ihb =>
    obtain ⟨t, us, rfl, ht⟩ := iha
    exact ⟨t, _, rfl, ht⟩
  | _ => exact ⟨_, _, rfl, by simp⟩

/-- The operators of a level by their signs. -/
def Level.op? : Level → Sign → Option BinaryOp
  | .or => orOp?
  | .and => andOp?
  | .compare => compareOp?
  | .add => addOp?
  | .mul => mulOp?
  | .unary | .primary => fun _ => none

theorem Level.op?_eq_some_iff {s : Sign} {op : BinaryOp} :
    l.op? s = some op ↔ op.level = l ∧ op.sign = s := by
  cases l <;> cases s <;> cases op <;> decide

theorem Ends.op?_eq_none {s : Sign} (h : Ends l (.sign s :: rest)) : l.op? s = none := by
  rw [Option.eq_none_iff_forall_ne_some]
  intro op hop
  obtain ⟨hlevel, hsign⟩ := Level.op?_eq_some_iff.1 hop
  have := h op hsign
  rw [hlevel] at this
  exact Nat.lt_irrefl _ this

/-- Operators and operands that follow an operand extend the phrase it ends. -/
theorem phrase_of_chain (hm : l.next? = some m) (hl : l ≠ .compare) (hr : Reads n operand m)
    {left : Expr} {fuel : Nat} (hleft : Phrase l us left)
    (h : chain l.op? operand fuel left ts = .ok (e, rest)) :
    ∃ vs, ts = vs ++ rest ∧ Phrase l (us ++ vs) e := by
  have hstop : ∀ {us ts : List Token} {left : Expr}, Phrase l us left →
      Except.ok (left, ts) = (.ok (e, rest) : Except Malformed _) →
      ∃ vs, ts = vs ++ rest ∧ Phrase l (us ++ vs) e := by
    intro us ts left hleft h
    cases h
    exact ⟨[], rfl, by rwa [List.append_nil]⟩
  induction fuel generalizing us left ts with
  | zero => exact hstop hleft h
  | succ fuel ih =>
    cases ts with
    | nil => exact hstop hleft h
    | cons t ts =>
      cases t with
      | sign s =>
        rw [chain] at h
        cases hop : l.op? s with
        | none =>
          rw [hop] at h
          exact hstop hleft h
        | some op =>
          rw [hop] at h
          obtain ⟨⟨right, ts'⟩, hright, hrest⟩ := exists_of_bind_ok h
          obtain ⟨ws, rfl, hws⟩ := hr.sound hright
          obtain ⟨hlevel, rfl⟩ := Level.op?_eq_some_iff.1 hop
          have hchain := Phrase.chain op hlevel hl hm hleft hws
          obtain ⟨vs, rfl, hvs⟩ := ih hchain hrest
          refine ⟨.sign op.sign :: ws ++ vs, ?_, ?_⟩
          · simp
          · simpa using hvs
      | _ => exact hstop hleft h

/-- A phrase is read as far as it goes; what is left of the chain is to be read on. -/
theorem Phrase.exists_chain (h : Phrase l us e) (hm : l.next? = some m) (hl : l ≠ .compare)
    (hu : l ≠ .unary) (hr : Reads n operand m) (hn : us.length < n) (hend : Ends m rest) :
    ∃ fuel, rest.length ≤ fuel ∧
      leftChain l.op? operand (us ++ rest) = Expr.chain l.op? operand fuel e rest := by
  induction h generalizing rest with
  | single hm' h ih =>
    cases hm.symm.trans hm'
    refine ⟨rest.length, Nat.le_refl _, ?_⟩
    rw [leftChain, hr.complete h hn hend]
    rfl
  | @chain l m' ts us a b op hop hl' hm' ha hb iha ihb =>
    cases hm.symm.trans hm'
    rw [List.length_append, List.length_cons] at hn
    have hb := hr.complete hb (Nat.lt_of_le_of_lt (by omega) hn) hend
    obtain ⟨fuel, hfuel, hread⟩ := iha hm hl hu (by omega)
      (ends_sign hm hop (us ++ rest))
    rw [List.length_cons, List.length_append] at hfuel
    obtain ⟨fuel, rfl⟩ : ∃ k, fuel = k + 1 := ⟨fuel - 1, by omega⟩
    refine ⟨fuel, by omega, ?_⟩
    rw [List.append_assoc, List.cons_append, hread, Expr.chain,
      Level.op?_eq_some_iff.2 ⟨hop, rfl⟩]
    show (operand (us ++ rest) >>= _) = _
    rw [hb]
    rfl
  | compare => exact absurd rfl hl
  | not | neg => exact absurd rfl hu
  | _ => cases hm

theorem chain_of_ends (hend : Ends l rest) (fuel : Nat) (e : Expr) :
    chain l.op? operand fuel e rest = .ok (e, rest) := by
  unfold chain
  split
  · rename_i s rest
    rw [hend.op?_eq_none]
  · rfl

theorem reads_leftChain (hm : l.next? = some m) (hl : l ≠ .compare) (hu : l ≠ .unary)
    (hr : Reads n operand m) : Reads n (leftChain l.op? operand) l where
  sound h := by
    obtain ⟨⟨left, ts'⟩, hleft, hrest⟩ := exists_of_bind_ok h
    obtain ⟨us, rfl, hus⟩ := hr.sound hleft
    obtain ⟨vs, rfl, hvs⟩ := phrase_of_chain hm hl hr (.single hm hus) hrest
    exact ⟨us ++ vs, (List.append_assoc _ _ _).symm, hvs⟩
  complete h hn hend := by
    obtain ⟨fuel, -, hread⟩ := h.exists_chain hm hl hu hr hn (hend.next hm)
    rw [hread, chain_of_ends hend]

theorem reads_comparison (hr : Reads n operand .add) : Reads n (comparison operand) .compare where
  sound {ts rest e} h := by
    obtain ⟨⟨left, ts'⟩, hleft, hrest⟩ := exists_of_bind_ok h
    obtain ⟨us, rfl, hus⟩ := hr.sound hleft
    have hstop : Except.ok (left, ts') = (.ok (e, rest) : Except Malformed _) →
        ∃ vs, us ++ ts' = vs ++ rest ∧ Phrase .compare vs e := by
      intro h
      cases h
      exact ⟨us, rfl, .single rfl hus⟩
    dsimp only at hrest
    split at hrest
    · split at hrest
      · rename_i s tail op hop
        obtain ⟨⟨right, tail'⟩, hright, hend⟩ := exists_of_bind_ok hrest
        obtain ⟨vs, rfl, hvs⟩ := hr.sound hright
        obtain ⟨hlevel, rfl⟩ := (Level.op?_eq_some_iff (l := .compare)).1 hop
        cases hend
        exact ⟨us ++ .sign op.sign :: vs, by simp, .compare op hlevel hus hvs⟩
      · exact hstop hrest
    · exact hstop hrest
  complete {us rest e} h hn hend := by
    cases h with
    | single hm h =>
      cases hm
      unfold comparison
      rw [hr.complete h hn (hend.next rfl)]
      dsimp only [bind, Except.bind]
      split
      · rename_i s tail
        rw [show compareOp? s = none from hend.op?_eq_none]
      · rfl
    | chain op hop hl => exact absurd rfl hl
    | @compare ts us a b op hop ha hb =>
      rw [List.length_append, List.length_cons] at hn
      unfold comparison
      rw [List.append_assoc, List.cons_append,
        hr.complete ha (by omega) (ends_sign (l := .compare) rfl hop _)]
      dsimp only [bind, Except.bind]
      rw [show compareOp? op.sign = some op from
        (Level.op?_eq_some_iff (l := .compare)).2 ⟨hop, rfl⟩]
      dsimp only
      rw [hr.complete hb (by omega) (hend.next rfl)]

/-- A primary phrase starts with no sign. -/
theorem Phrase.unary_eq (h : Phrase .primary ts e) (inner : Rule) (rest : List Token) :
    unary inner (ts ++ rest) = primary inner (ts ++ rest) := by
  cases h with
  | single hm h => cases hm
  | chain op hop hl hm ha hb => cases hm
  | _ => rfl

theorem reads_unary (hr : Reads n (primary inner) .primary) : Reads n (unary inner) .unary where
  sound {ts rest e} h := by
    fun_induction unary inner ts generalizing rest e with
    | case1 ts ih =>
      obtain ⟨⟨e, rest⟩, hread, heq⟩ := exists_of_map_ok h
      cases heq
      obtain ⟨us, rfl, hus⟩ := ih hread
      exact ⟨_, rfl, .not hus⟩
    | case2 ts ih =>
      obtain ⟨⟨e, rest⟩, hread, heq⟩ := exists_of_map_ok h
      cases heq
      obtain ⟨us, rfl, hus⟩ := ih hread
      exact ⟨_, rfl, .neg hus⟩
    | case3 ts hnot hneg =>
      obtain ⟨us, rfl, hus⟩ := hr.sound h
      exact ⟨us, rfl, .single rfl hus⟩
  complete {us rest e} h hn hend := by
    obtain ⟨l, hl⟩ : ∃ l, l = Level.unary := ⟨_, rfl⟩
    rw [← hl] at h
    induction h with
    | single hm h =>
      subst hl
      cases hm
      rw [h.unary_eq inner rest, hr.complete h hn (hend.next rfl)]
    | @chain l m ts us a b op hop hl' hm ha hb =>
      subst hl
      cases op <;> cases hop
    | compare => cases hl
    | @not ts e h ih =>
      rw [List.length_cons] at hn
      show Except.map _ (unary inner (ts ++ rest)) = _
      rw [ih (by omega) rfl]
      rfl
    | @neg ts e h ih =>
      rw [List.length_cons] at hn
      show Except.map _ (unary inner (ts ++ rest)) = _
      rw [ih (by omega) rfl]
      rfl
    | _ => cases hl

theorem separated_cons_cons (a b : List Token × Expr) (args : List (List Token × Expr)) :
    separated (a :: b :: args) = a.1 ++ .comma :: separated (b :: args) := by
  simp [separated, List.intercalate]

theorem separated_singleton (a : List Token × Expr) : separated [a] = a.1 := by
  simp [separated, List.intercalate]

theorem separated_head (a : List Token × Expr) (args : List (List Token × Expr))
    (h : Phrase .or a.1 a.2) : ∃ t us, separated (a :: args) = t :: us ∧ t ≠ .closing := by
  obtain ⟨t, us, ha, ht⟩ := h.head
  cases args with
  | nil => exact ⟨t, us, by rw [separated_singleton, ha], ht⟩
  | cons b args => exact ⟨t, _, by rw [separated_cons_cons, ha]; rfl, ht⟩

theorem arguments_sound (hr : Reads n inner .or) {fuel : Nat} {es : List Expr}
    (h : arguments inner fuel ts = .ok (es, rest)) :
    ∃ args, args ≠ [] ∧ ts = separated args ++ rest ∧ es = args.map (·.2) ∧
      ∀ a ∈ args, Phrase .or a.1 a.2 := by
  induction fuel generalizing ts es with
  | zero =>
    obtain ⟨⟨e, rest'⟩, hread, hstop⟩ := exists_of_map_ok h
    obtain ⟨us, rfl, hus⟩ := hr.sound hread
    cases hstop
    exact ⟨[(us, e)], by simp, by rw [separated_singleton], rfl, by simpa using hus⟩
  | succ fuel ih =>
    obtain ⟨⟨e, rest'⟩, hread, hmore⟩ := exists_of_bind_ok h
    obtain ⟨us, rfl, hus⟩ := hr.sound hread
    dsimp only at hmore
    split at hmore
    · obtain ⟨⟨more, rest''⟩, hargs, hstop⟩ := exists_of_bind_ok hmore
      cases hstop
      obtain ⟨args, hne, rfl, rfl, hall⟩ := ih hargs
      cases args with
      | nil => exact absurd rfl hne
      | cons b args =>
        refine ⟨(us, e) :: b :: args, by simp, ?_, rfl, ?_⟩
        · rw [separated_cons_cons]
          simp
        · rintro a (_ | ⟨_, ha⟩)
          · exact hus
          · exact hall a ha
    · cases hmore
      exact ⟨[(us, e)], by simp, by rw [separated_singleton], rfl, by simpa using hus⟩

theorem arguments_complete (hr : Reads n inner .or) (a : List Token × Expr)
    (args : List (List Token × Expr)) (hall : ∀ b ∈ a :: args, Phrase .or b.1 b.2) {fuel : Nat}
    (hn : (separated (a :: args)).length < n) (hfuel : (separated (a :: args)).length ≤ fuel) :
    arguments inner fuel (separated (a :: args) ++ .closing :: rest) =
      .ok ((a :: args).map (·.2), .closing :: rest) := by
  have ha := hall a List.mem_cons_self
  induction args generalizing a fuel with
  | nil =>
    rw [separated_singleton] at hn ⊢
    have hread : inner (a.1 ++ .closing :: rest) = .ok (a.2, .closing :: rest) :=
      hr.complete ha hn trivial
    cases fuel <;> rw [arguments, hread] <;> rfl
  | cons b args ih =>
    have hall' := fun c hc => hall c (List.mem_cons_of_mem a hc)
    rw [separated_cons_cons, List.length_append, List.length_cons] at hn hfuel
    obtain ⟨fuel, rfl⟩ : ∃ k, fuel = k + 1 := ⟨fuel - 1, by omega⟩
    have hrest : arguments inner fuel (separated (b :: args) ++ .closing :: rest) =
        .ok ((b :: args).map (·.2), .closing :: rest) :=
      ih b hall' (by omega) (by omega) (hall' b List.mem_cons_self)
    have hread : inner (a.1 ++ .comma :: (separated (b :: args) ++ .closing :: rest)) =
        .ok (a.2, .comma :: (separated (b :: args) ++ .closing :: rest)) :=
      hr.complete ha (by omega) trivial
    rw [separated_cons_cons, List.append_assoc, List.cons_append, arguments, hread]
    show (arguments inner fuel _ >>= _) = _
    rw [hrest]
    rfl

theorem application_sound (hr : Reads n inner .or) {f : String}
    (h : application inner f ts = .ok (e, rest)) :
    ∃ args, ts = separated args ++ .closing :: rest ∧ e = .call f (args.map (·.2)) ∧
      ∀ a ∈ args, Phrase .or a.1 a.2 := by
  unfold application at h
  split at h
  · cases h
    exact ⟨[], rfl, rfl, by simp⟩
  · obtain ⟨⟨es, tail⟩, hargs, hclose⟩ := exists_of_bind_ok h
    obtain ⟨args, -, rfl, rfl, hall⟩ := arguments_sound hr hargs
    dsimp only at hclose
    split at hclose
    · cases hclose
      exact ⟨args, rfl, rfl, hall⟩
    · cases hclose

theorem application_complete (hr : Reads n inner .or) (f : String)
    (args : List (List Token × Expr)) (hall : ∀ a ∈ args, Phrase .or a.1 a.2)
    (hn : (separated args).length < n) :
    application inner f (separated args ++ .closing :: rest) =
      .ok (.call f (args.map (·.2)), rest) := by
  cases args with
  | nil => rfl
  | cons a args =>
    have hread : arguments inner (separated (a :: args) ++ .closing :: rest).length
        (separated (a :: args) ++ .closing :: rest) =
          .ok ((a :: args).map (·.2), .closing :: rest) :=
      arguments_complete hr a args hall hn (by rw [List.length_append]; omega)
    obtain ⟨t, us, hus, ht⟩ := separated_head a args (hall a List.mem_cons_self)
    unfold application
    split
    · rename_i heq
      rw [hus] at heq
      cases heq
      exact absurd rfl ht
    · rw [hread]
      rfl

theorem reads_primary (hr : Reads n inner .or) : Reads (n + 1) (primary inner) .primary where
  sound {ts rest e} h := by
    unfold primary at h
    split at h
    · cases h
    · cases h
      exact ⟨_, rfl, .number _⟩
    · cases h
      exact ⟨_, rfl, .text _⟩
    · split at h
      · rename_i htrue
        cases h
        subst htrue
        exact ⟨_, rfl, .true⟩
      · split at h
        · rename_i hfalse
          cases h
          subst hfalse
          exact ⟨_, rfl, .false⟩
        · rename_i s tail htrue hfalse
          split at h
          · obtain ⟨args, rfl, rfl, hall⟩ := application_sound hr h
            exact ⟨_, by simp, .call ⟨htrue, hfalse⟩ args hall⟩
          · cases h
            exact ⟨_, rfl, .name ⟨htrue, hfalse⟩⟩
    · rename_i tail
      obtain ⟨⟨e', tail'⟩, hinner, hclose⟩ := exists_of_bind_ok h
      obtain ⟨us, rfl, hus⟩ := hr.sound hinner
      dsimp only at hclose
      split at hclose
      · cases hclose
        exact ⟨_, by simp, .group hus⟩
      · cases hclose
    · cases h
  complete {us rest e} h hn hend := by
    cases h with
    | single hm h => cases hm
    | chain op hop hl hm ha hb => cases hm
    | number x => rfl
    | text s => rfl
    | true => rfl
    | false => rfl
    | @name s hs =>
      unfold primary
      simp only [List.singleton_append]
      rw [if_neg hs.1, if_neg hs.2]
      cases rest with
      | nil => rfl
      | cons t rest =>
        cases t with
        | opening => exact hend.elim
        | _ => rfl
    | @call f hf args hall =>
      unfold primary
      simp only [List.cons_append, List.append_assoc]
      rw [if_neg hf.1, if_neg hf.2]
      show application inner f (separated args ++ .closing :: rest) = _
      refine application_complete hr f args hall ?_
      rw [List.length_cons, List.length_cons, List.length_append] at hn
      omega
    | @group ts e h =>
      rw [List.length_cons, List.length_append] at hn
      have hread : inner (ts ++ .closing :: rest) = .ok (e, .closing :: rest) :=
        hr.complete h (by omega) trivial
      unfold primary
      simp only [List.cons_append, List.append_assoc, List.nil_append]
      rw [hread]
      rfl

theorem reads_level (hr : Reads n inner .or) : Reads (n + 1) (level inner) .or := by
  have hunary := reads_unary (reads_primary hr)
  have hmul := reads_leftChain (l := .mul) rfl (by decide) (by decide) hunary
  have hadd := reads_leftChain (l := .add) rfl (by decide) (by decide) hmul
  have hcompare := reads_comparison hadd
  have hand := reads_leftChain (l := .and) rfl (by decide) (by decide) hcompare
  exact reads_leftChain (l := .or) rfl (by decide) (by decide) hand

/-- A bound on the depth of parentheses is one on the number of tokens. -/
theorem reads_rule (n : Nat) : Reads n (rule n) .or := by
  induction n with
  | zero => exact ⟨fun h => (nomatch h), fun h hn => absurd hn (Nat.not_lt_zero _)⟩
  | succ n ih => exact reads_level ih

/-- Tokens are read as an expression exactly if they derive it, and they derive one at most. -/
theorem ofTokens_derives (tokens : List Token) :
    (∀ e, ofTokens tokens = .ok e ↔ Phrase .or tokens e) ∧
      ∀ e e', Phrase .or tokens e → Phrase .or tokens e' → e = e' := by
  have hreads := reads_rule (tokens.length + 1)
  have hread : ∀ {e}, Phrase .or tokens e → ofTokens tokens = .ok e := by
    intro e h
    have hrule : rule (tokens.length + 1) (tokens ++ []) = .ok (e, []) :=
      hreads.complete h (Nat.lt_succ_self _) trivial
    rw [List.append_nil] at hrule
    unfold ofTokens takeTokens
    rw [hrule]
    rfl
  refine ⟨fun e => ⟨fun h => ?_, hread⟩, fun e e' h h' => ?_⟩
  · obtain ⟨⟨e', rest⟩, hrule, hend⟩ := exists_of_bind_ok h
    obtain ⟨us, hus, hphrase⟩ := hreads.sound hrule
    cases rest with
    | nil =>
      cases hend
      rwa [hus, List.append_nil]
    | cons t rest => cases hend
  · exact Except.ok.inj ((hread h).symm.trans (hread h'))

end Expr

end Playhead
