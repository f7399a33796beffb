import Playhead.Proofs.Expr.Statements
import Playhead.Proofs.Services.Assigning

/-!
Targets of assignments, and what they are read as in an expression.

Both forms of an assignment take any name as their target. The scanner finds the same name in an
expression, where `true` and `false` are values. Main statement: the target that is assigned to
last is evaluated to what was stored, unless it is one of these two.
-/

namespace Playhead

namespace Token

variable {c : Char} {cs : List Char} {ts : List Token} {s : String}

theorem isName_takeWhile (hc : startsName c = true) :
    Assignment.isName (c :: cs.takeWhile continuesName) = true :=
  Assignment.isName_iff.2 ⟨c, _, rfl, hc, fun _ hd => List.mem_takeWhile_imp hd⟩

theorem Scans.isName (h : Scans cs ts) (hs : .name s ∈ ts) :
    Assignment.isName s.toList = true := by
  induction h with
  | nil => cases hs
  | blank hc h ih => exact ih hs
  | token ht h ih =>
    obtain _ | ⟨_, hs⟩ := hs
    · cases ht with
      | name hc =>
        rw [String.toList_ofList]
        exact isName_takeWhile hc
    · exact ih hs

theorem scans_of_isName (h : Assignment.isName cs = true) :
    Scans cs [.name (String.ofList cs)] := by
  obtain ⟨c, cs, rfl, hc, hcs⟩ := Assignment.isName_iff.1 h
  have htakes : Takes (c :: cs) _ _ := .name hc
  rw [List.takeWhile_eq_self_iff.2 hcs, List.dropWhile_eq_nil_iff.2 hcs] at htakes
  exact .token htakes .nil

end Token

namespace Expr

variable {ts : List Token} {e : Expr} {s : String}

/-- What a name by itself is read as. -/
def ofName (s : String) : Expr :=
  if s = "true" then .literal (.bool true)
  else if s = "false" then .literal (.bool false)
  else .variable s

theorem ofName_eq (h : IsName s) : ofName s = .variable s := by
  rw [ofName, if_neg h.1, if_neg h.2]

theorem phrase_of_primary (h : Phrase .primary ts e) : Phrase .or ts e :=
  .single (m := .and) rfl <| .single (m := .compare) rfl <| .single (m := .add) rfl <|
    .single (m := .mul) rfl <| .single (m := .unary) rfl <| .single rfl h

theorem phrase_ofName (s : String) : Phrase .primary [.name s] (ofName s) := by
  unfold ofName
  split
  · rename_i htrue
    rw [htrue]
    exact .true
  · rename_i htrue
    split
    · rename_i hfalse
      rw [hfalse]
      exact .false
    · rename_i hfalse
      exact .name ⟨htrue, hfalse⟩

theorem parse_of_isName (h : Assignment.isName s.toList = true) : parse s = .ok (ofName s) := by
  have hscan := Token.scans_of_isName h
  rw [String.ofList_toList] at hscan
  exact parse_eq_ok_iff.2 ⟨_, hscan, ofTokens_of_phrase (phrase_of_primary (phrase_ofName s))⟩

end Expr

namespace VariableStore

variable {s after : VariableStore} {l m : List Assignment} {a : Assignment}

theorem get?_set_self (s : VariableStore) (name : String) (value : Value) :
    (s.set name value).get? name = some value := by
  rw [get?_eq, half_set, if_pos rfl, NameMap.get?_insert, if_pos rfl]

theorem apply_append (s : VariableStore) (l m : List Assignment) :
    s.apply (l ++ m) = s.apply l >>= fun t => t.apply m := by
  simp only [apply_eq_applyEach]
  exact List.foldlM_append

/-- The last assignment finds what those before it have stored. -/
theorem exists_apply_concat (h : s.apply (l ++ [a]) = .ok after) :
    ∃ between value, s.apply l = .ok between ∧
      a.resolve (between.get? a.target) between.get? = .ok value ∧
      after = between.set a.target value := by
  rw [apply_append] at h
  obtain ⟨between, hbetween, hlast⟩ := exists_of_bind_ok h
  rw [apply_one] at hlast
  obtain ⟨value, hvalue, hset⟩ := exists_of_map_ok hlast
  exact ⟨between, value, hbetween, hvalue, hset.symm⟩

end VariableStore

namespace Assignment

variable {source : String} {l : List Assignment} {a : Assignment}

theorem Assigns.isName_target {st : List Char} {target : String} {op : AssignOp}
    {ts : List Token} (h : Assigns st target op ts) : isName target.toList = true := by
  cases h with
  | plain hst hts =>
    rw [String.toList_ofList]
    exact (plain?_eq_some_iff.1 hst).1
  | compound hst hts hop => exact hts.isName List.mem_cons_self

theorem isName_target {ps : List (List Char)} (h : List.Forall₂ IsRead ps l) (ha : a ∈ l) :
    isName a.target.toList = true := by
  induction h with
  | nil => cases ha
  | cons hread h ih =>
    obtain _ | ⟨_, ha⟩ := ha
    · obtain ⟨ts, hassigns, -⟩ := hread
      exact hassigns.isName_target
    · exact ih ha

theorem parse_target (h : parseAll source = .ok l) (ha : a ∈ l) :
    Expr.parse a.target = .ok (Expr.ofName a.target) :=
  Expr.parse_of_isName (isName_target (parseAll_eq_ok_iff.1 h).2 ha)

/-- The target of an assignment is read as the variable of its name, unless the name is one of the
two that are values. The last one is then evaluated to what was just stored for it. -/
theorem target_readBack (h : parseAll source = .ok l) :
    (∀ a ∈ l, Expr.parse a.target = .ok (Expr.ofName a.target)) ∧
    ∀ (before : List Assignment) (a : Assignment) (store after : VariableStore),
      l = before ++ [a] → Expr.IsName a.target → store.apply l = .ok after →
      Expr.parse a.target = .ok (.variable a.target) ∧
      ∃ between value, store.apply before = .ok between ∧
        a.resolve (between.get? a.target) between.get? = .ok value ∧
        after = between.set a.target value ∧
        (Expr.variable a.target).eval after.get? = .ok value := by
  refine ⟨fun a ha => parse_target h ha, ?_⟩
  rintro before a store after rfl hname happly
  have hparse := parse_target h (List.mem_append_right before (List.mem_singleton_self a))
  rw [Expr.ofName_eq hname] at hparse
  obtain ⟨between, value, hbetween, hvalue, rfl⟩ := VariableStore.exists_apply_concat happly
  refine ⟨hparse, between, value, hbetween, hvalue, rfl, ?_⟩
  rw [Expr.eval, VariableStore.get?_set_self]

/-- A text is stored and then joined to itself. -/
theorem target_readBack_twice :
    ∃ l after, parseAll "é = \"a\"; é += é" = .ok l ∧ VariableStore.empty.apply l = .ok after ∧
      Expr.parse "é" = .ok (.variable "é") ∧
      (Expr.variable "é").eval after.get? = .ok (.text "aa") := by
  have h : parseAll "é = \"a\"; é += é" =
      .ok ([⟨"é", .set, .literal (.text "a")⟩] ++ [⟨"é", .add, .variable "é"⟩]) := by
    have hplain : plain? "é = \"a\"".toList = some (['é'], " \"a\"".toList) := rfl
    have hscan : Token.Scans " \"a\"".toList [.text "a"] :=
      .blank (by decide) (.token (.text (.char (by decide) (by decide) .close) []) .nil)
    have hname : Token.Takes "é += é".toList (.name "é") " += é".toList := .name (by decide)
    have hsign : Token.Takes (Sign.addSet.chars ++ " é".toList) (.sign .addSet) " é".toList :=
      .sign rfl
    have hvalue : Token.Takes "é".toList (.name "é") [] := .name (by decide)
    have hscan' : Token.Scans "é += é".toList [.name "é", .sign .addSet, .name "é"] :=
      .token hname <| .blank (by decide) <| .token hsign <| .blank (by decide) <| .token hvalue .nil
    exact parseAll_eq_ok_iff.2 ⟨List.cons_ne_nil _ _, .cons ⟨_, .plain hplain hscan, rfl⟩
      (.cons ⟨_, .compound rfl hscan' rfl, rfl⟩ .nil)⟩
  have happly : VariableStore.empty.apply
      ([⟨"é", .set, .literal (.text "a")⟩] ++ [⟨"é", .add, .variable "é"⟩]) =
        .ok ((VariableStore.empty.set "é" (.text "a")).set "é" (.text "aa")) := by
    rw [VariableStore.apply_eq_applyEach]
    rfl
  obtain ⟨hparse, between, value, -, -, hset, heval⟩ :=
    (target_readBack h).2 _ _ _ _ rfl ⟨by decide, by decide⟩ happly
  have hstored := congrArg (fun s => s.get? "é") hset
  dsimp only at hstored
  rw [VariableStore.get?_set_self, VariableStore.get?_set_self] at hstored
  cases hstored
  exact ⟨_, _, h, happly, hparse, heval⟩

/-- The name of a value is taken as a target and keeps what is stored for it, but it is still read
as the value. -/
theorem target_readBack_keyword :
    parseAll "true = false" = .ok [⟨"true", .set, .literal (.bool false)⟩] ∧
    Expr.parse "true" = .ok (.literal (.bool true)) ∧
    ∃ after, VariableStore.empty.apply [⟨"true", .set, .literal (.bool false)⟩] = .ok after ∧
      after.get? "true" = some (.bool false) ∧
      (Expr.parse "true" >>= fun e => e.eval after.get?) = .ok (.bool true) := by
  have hparse : Expr.parse "true" = .ok (.literal (.bool true)) :=
    Expr.parse_of_isName (s := "true") rfl
  refine ⟨?_, hparse, VariableStore.empty.set "true" (.bool false), ?_, ?_, ?_⟩
  · have hplain : plain? "true = false".toList = some ("true".toList, " false".toList) := rfl
    have hscan : Token.Scans " false".toList [.name "false"] :=
      .blank (by decide) (Token.scans_of_isName rfl)
    exact parseAll_eq_ok_iff.2 ⟨List.cons_ne_nil _ _, .cons ⟨_, .plain hplain hscan, rfl⟩ .nil⟩
  · rw [VariableStore.apply_one]
    rfl
  · exact VariableStore.get?_set_self _ _ _
  · rw [hparse]
    rfl

end Assignment

end Playhead
