import Mathlib.Data.List.Find
import Mathlib.Data.List.Forall2
import Mathlib.Data.List.Induction
import Playhead.Command.Builtin
import Playhead.Proofs.Except

/-!
Handlers are found again under their own names, and the built-in ones under theirs.

The table of names is opened once, in `get?_append`: a registered handler is found under its names,
and the other names lead where they led before. So a registry answers to the names of the calls it
took, without regard to ASCII case, and a call it refused leaves no trace.
-/

namespace Playhead

theorem toNat_toLower (c : Char) :
    c.toLower.toNat = if 65 ≤ c.toNat ∧ c.toNat ≤ 90 then c.toNat + 32 else c.toNat := by
  unfold Char.toLower
  split
  · rename_i h
    have hge : 65 ≤ c.toNat := h.1
    have hle : c.toNat ≤ 90 := h.2
    rw [if_pos ⟨hge, hle⟩]
    show (c.val + 32).toNat = c.toNat + 32
    rw [UInt32.toNat_add]
    exact Nat.mod_eq_of_lt (by show c.toNat + 32 < _; omega)
  · rename_i h
    rw [if_neg]
    exact h

theorem toLower_toLower (s : String) : s.toLower.toLower = s.toLower := by
  show (s.map Char.toLower).map Char.toLower = s.map Char.toLower
  rw [String.map_map]
  congr 1
  funext c
  refine Char.toNat_inj.1 ?_
  simp only [Function.comp_apply, toNat_toLower]
  split
  · split <;> omega
  · rfl

theorem Handler.toLower_of_mem_keys {h : Handler} {key : String} (hk : key ∈ h.keys) :
    key.toLower = key := by
  obtain ⟨name, -, rfl⟩ := List.mem_map.1 hk
  exact toLower_toLower name

theorem Handler.toLower_name_mem_keys (h : Handler) : h.name.toLower ∈ h.keys :=
  List.mem_map_of_mem List.mem_cons_self

namespace Registry

theorem get?_enter (table : NameMap Nat) (names : List String) (index : Nat) (key : String) :
    (enter table names index).get? key = if key ∈ names then some index else table.get? key := by
  induction names generalizing table with
  | nil => simp [enter]
  | cons name rest ih =>
    show (enter (table.insert name index) rest index).get? key = _
    rw [ih, NameMap.get?_insert]
    grind

theorem byName_append (l : List Handler) (h : Handler) :
    byName ⟨l ++ [h]⟩ = enter (byName ⟨l⟩) h.keys l.length := by
  simp [byName, List.zipIdx_append]

theorem exists_of_get?_byName {l : List Handler} {key : String} {index : Nat}
    (h : (byName ⟨l⟩).get? key = some index) : ∃ k, l[index]? = some k ∧ key ∈ k.keys := by
  induction l using List.reverseRecOn with
  | nil => cases h
  | append_singleton l k ih =>
    rw [byName_append, get?_enter] at h
    split at h
    · rename_i hkey
      cases h
      exact ⟨k, by simp, hkey⟩
    · obtain ⟨k', hk', hkey⟩ := ih h
      have hlt := (List.getElem?_eq_some_iff.1 hk').1
      exact ⟨k', by rw [List.getElem?_append_left hlt, hk'], hkey⟩

theorem get?_byName_eq_none_iff {l : List Handler} {key : String} :
    (byName ⟨l⟩).get? key = none ↔ ∀ k ∈ l, key ∉ k.keys := by
  induction l using List.reverseRecOn with
  | nil => exact ⟨fun _ _ hk => absurd hk List.not_mem_nil, fun _ => rfl⟩
  | append_singleton l k ih =>
    rw [byName_append, get?_enter]
    split
    · rename_i hkey
      exact ⟨fun h => (Option.some_ne_none _ h).elim, fun h => absurd hkey (h k (by simp))⟩
    · rename_i hkey
      rw [ih, List.forall_mem_append, List.forall_mem_singleton]
      exact (and_iff_left hkey).symm

/-- The very text finds no more than the folded one, for the table holds folded names only. -/
theorem get?_eq_bind (r : Registry) (name : String) :
    r.get? name = (r.byName.get? name.toLower).bind (r.handlers[·]?) := by
  unfold get?
  cases hname : r.byName.get? name with
  | none => cases r.byName.get? name.toLower <;> rfl
  | some index =>
    obtain ⟨k, -, hkey⟩ := exists_of_get?_byName hname
    rw [Handler.toLower_of_mem_keys hkey, hname]
    rfl

theorem get?_toLower (r : Registry) (name : String) : r.get? name.toLower = r.get? name := by
  rw [get?_eq_bind, get?_eq_bind, toLower_toLower]

theorem get?_append (l : List Handler) (h : Handler) (name : String) :
    get? ⟨l ++ [h]⟩ name = if name.toLower ∈ h.keys then some h else get? ⟨l⟩ name := by
  rw [get?_eq_bind, get?_eq_bind, byName_append, get?_enter]
  split
  · simp
  · cases hindex : (byName ⟨l⟩).get? name.toLower with
    | none => rfl
    | some index =>
      obtain ⟨k, hk, -⟩ := exists_of_get?_byName hindex
      exact List.getElem?_append_left (List.getElem?_eq_some_iff.1 hk).1

theorem exists_of_get? {r : Registry} {name : String} {h : Handler} (hh : r.get? name = some h) :
    h ∈ r.handlers ∧ name.toLower ∈ h.keys := by
  rw [get?_eq_bind] at hh
  obtain ⟨index, hindex, hget⟩ := Option.bind_eq_some_iff.1 hh
  obtain ⟨k, hk, hkey⟩ := exists_of_get?_byName hindex
  obtain rfl : k = h := Option.some.inj (hk.symm.trans hget)
  exact ⟨List.mem_of_getElem? hk, hkey⟩

theorem mem_of_get? {r : Registry} {name : String} {h : Handler} (hh : r.get? name = some h) :
    h ∈ r.handlers :=
  (exists_of_get? hh).1

theorem get?_eq_none_iff {r : Registry} {name : String} :
    r.get? name = none ↔ ∀ h ∈ r.handlers, name.toLower ∉ h.keys := by
  rw [← get?_byName_eq_none_iff, get?_eq_bind]
  cases hindex : r.byName.get? name.toLower with
  | none => exact iff_of_true rfl rfl
  | some index =>
    obtain ⟨k, hk, -⟩ := exists_of_get?_byName hindex
    exact iff_of_false (fun h => Option.some_ne_none k (hk.symm.trans h)) (Option.some_ne_none _)

/-- Every handler of a registry is found under its own name. -/
def Distinct (r : Registry) : Prop :=
  ∀ h ∈ r.handlers, r.get? h.name = some h

theorem Distinct.get?_name {r : Registry} (hr : r.Distinct) {name : String} {h : Handler}
    (hh : r.get? name = some h) : r.get? h.name = some h :=
  hr h (mem_of_get? hh)

theorem register_eq_ok {r r' : Registry} {h : Handler} (hr : r.register h = .ok r') :
    r' = ⟨r.handlers ++ [h]⟩ ∧ ∀ key ∈ h.keys, r.get? key = none := by
  unfold register at hr
  split at hr
  · cases hr
  · rename_i hfind
    cases hr
    refine ⟨rfl, fun key hkey => get?_eq_none_iff.2 ?_⟩
    have hfree := List.find?_eq_none.1 hfind key hkey
    rw [Handler.toLower_of_mem_keys hkey]
    exact get?_byName_eq_none_iff.1 (Option.not_isSome_iff_eq_none.1 hfree)

theorem get?_register {r r' : Registry} {h : Handler} (hr : r.register h = .ok r')
    {name : String} {k : Handler} (hk : r.get? name = some k) : r'.get? name = some k := by
  obtain ⟨rfl, hfree⟩ := register_eq_ok hr
  rw [get?_append, if_neg, hk]
  intro hkey
  have hnone := hfree _ hkey
  rw [get?_toLower, hk] at hnone
  cases hnone

theorem Distinct.register {r r' : Registry} {h : Handler} (hr : r.Distinct)
    (hh : r.register h = .ok r') : r'.Distinct := by
  intro k hk
  rw [(register_eq_ok hh).1] at hk
  rcases List.mem_append.1 hk with hk | hk
  · exact get?_register hh (hr k hk)
  · rw [List.mem_singleton.1 hk, (register_eq_ok hh).1, get?_append,
      if_pos h.toLower_name_mem_keys]

/-- A property of registries that every registration keeps outlasts a list of registrations. -/
theorem registerAll_induction {P : Registry → Prop} {r r' : Registry} {l : List Handler}
    (h : r.registerAll l = .ok r') (hr : P r)
    (hstep : ∀ {m m' : Registry} {k : Handler}, m.register k = .ok m' → P m → P m') : P r' := by
  induction l generalizing r with
  | nil =>
    cases h
    exact hr
  | cons k rest ih =>
    obtain ⟨m, hm, h⟩ := exists_of_bind_ok h
    exact ih h (hstep hm hr)

theorem registerAll_eq_ok {r r' : Registry} {l : List Handler}
    (h : r.registerAll l = .ok r') : r' = ⟨r.handlers ++ l⟩ := by
  induction l generalizing r with
  | nil =>
    cases h
    rw [List.append_nil]
  | cons k rest ih =>
    obtain ⟨m, hm, h⟩ := exists_of_bind_ok h
    rw [ih h, (register_eq_ok hm).1, List.append_assoc, List.singleton_append]

theorem get?_registerAll {r r' : Registry} {l : List Handler} (h : r.registerAll l = .ok r')
    {name : String} {k : Handler} (hk : r.get? name = some k) : r'.get? name = some k :=
  registerAll_induction (P := fun m => m.get? name = some k) h hk
    fun hm hk => get?_register hm hk

theorem Distinct.registerAll {r r' : Registry} {l : List Handler} (hr : r.Distinct)
    (h : r.registerAll l = .ok r') : r'.Distinct :=
  registerAll_induction h hr fun hm hd => hd.register hm

end Registry

namespace Builtin

/-- No name stands twice among the built-in commands. -/
theorem registerAll_handlers : Registry.empty.registerAll handlers = .ok .builtin := by
  have hrun : (Registry.empty.registerAll handlers).toOption.isSome = true := by
    decide +kernel
  obtain ⟨r, hr⟩ := Option.isSome_iff_exists.1 hrun
  have hall := eq_ok_of_toOption hr
  rw [hall, Registry.registerAll_eq_ok hall]
  rfl

theorem distinct : Registry.builtin.Distinct :=
  Registry.Distinct.registerAll (fun _ hk => absurd hk List.not_mem_nil) registerAll_handlers

end Builtin

/-- Characters that are equal or the two cases of one ASCII letter. -/
def SameLetter (a b : Char) : Prop :=
  a = b ∨ a.isUpper ∧ b.toNat = a.toNat + 32 ∨ b.isUpper ∧ a.toNat = b.toNat + 32

instance : DecidableRel SameLetter := fun _ _ => instDecidableOr

/-- Texts that are equal but for the case of ASCII letters. -/
def SameName (s t : String) : Prop :=
  List.Forall₂ SameLetter s.toList t.toList

instance : DecidableRel SameName := fun s t =>
  inferInstanceAs (Decidable (List.Forall₂ SameLetter s.toList t.toList))

theorem isUpper_iff {c : Char} : c.isUpper = true ↔ 65 ≤ c.toNat ∧ c.toNat ≤ 90 :=
  decide_eq_true_iff

theorem sameLetter_iff {a b : Char} : SameLetter a b ↔ a.toLower = b.toLower := by
  rw [SameLetter, isUpper_iff, isUpper_iff, ← Char.toNat_inj, ← Char.toNat_inj, toNat_toLower,
    toNat_toLower]
  split <;> split <;> omega

theorem sameName_iff {s t : String} : SameName s t ↔ s.toLower = t.toLower := by
  have hsame : SameLetter = fun a b => a.toLower = b.toLower := by
    funext a b
    exact propext sameLetter_iff
  rw [SameName, hsame, ← String.toList_inj]
  show _ ↔ (s.map Char.toLower).toList = (t.map Char.toLower).toList
  rw [String.toList_map, String.toList_map, ← List.forall₂_eq_eq_eq, List.forall₂_map_left_iff,
    List.forall₂_map_right_iff]

namespace Handler

/-- The name of a handler and its aliases. -/
def names (h : Handler) : List String :=
  h.name :: h.aliases

/-- The text is one of the names but for the case of ASCII letters. -/
def Answers (h : Handler) (text : String) : Prop :=
  ∃ name ∈ h.names, SameName name text

theorem answers_iff {h : Handler} {text : String} : h.Answers text ↔ text.toLower ∈ h.keys := by
  unfold Answers keys
  rw [List.mem_map]
  exact exists_congr fun _ => and_congr_right fun _ => sameName_iff

end Handler

namespace Registry

/-- The registry after a call, which a refused one leaves as it was. -/
def attempt (r : Registry) (h : Handler) : Registry :=
  (r.register h).toOption.getD r

/-- The registry after some calls from an empty one. -/
def after (calls : List Handler) : Registry :=
  calls.foldl attempt empty

/-- The call at a place of a list of calls registered this handler. -/
structure Took (calls : List Handler) (i : Nat) (h : Handler) : Prop where
  call : calls[i]? = some h
  taken : ∃ r, (after (calls.take i)).register h = .ok r

theorem attempt_of_ok {r r' : Registry} {h : Handler} (hr : r.register h = .ok r') :
    r.attempt h = r' := by
  rw [attempt, hr]
  rfl

theorem attempt_of_error {r : Registry} {h : Handler} {error : RegistryError}
    (hr : r.register h = .error error) : r.attempt h = r := by
  rw [attempt, hr]
  rfl

theorem after_concat (calls : List Handler) (h : Handler) :
    after (calls ++ [h]) = (after calls).attempt h :=
  List.foldl_concat ..

/-- A handler is refused just when one of its names is taken. -/
theorem register_eq_error_iff {r : Registry} {h : Handler} :
    (∃ error, r.register h = .error error) ↔
      ∃ k ∈ r.handlers, ∃ name ∈ h.names, k.Answers name := by
  constructor
  · rintro ⟨error, herror⟩
    unfold register at herror
    split at herror
    · rename_i taken hfind
      obtain ⟨name, hname, rfl⟩ := List.mem_map.1 (List.mem_of_find?_eq_some hfind)
      have htaken : r.byName.contains name.toLower = true := List.find?_some hfind
      obtain ⟨index, hindex⟩ := Option.isSome_iff_exists.1 htaken
      obtain ⟨k, hk, hkey⟩ := exists_of_get?_byName hindex
      exact ⟨k, List.mem_of_getElem? hk, name, hname, Handler.answers_iff.2 hkey⟩
    · cases herror
  · rintro ⟨k, hk, name, hname, hanswers⟩
    cases hr : r.register h with
    | error error => exact ⟨error, rfl⟩
    | ok r' =>
      have hnone := (register_eq_ok hr).2 name.toLower (List.mem_map_of_mem hname)
      rw [get?_toLower] at hnone
      exact absurd (Handler.answers_iff.1 hanswers) (get?_eq_none_iff.1 hnone k hk)

theorem Took.lt {calls : List Handler} {i : Nat} {h : Handler} (ht : Took calls i h) :
    i < calls.length :=
  (List.getElem?_eq_some_iff.1 ht.call).1

theorem took_append_iff {calls rest : List Handler} {i : Nat} {h : Handler}
    (hi : i < calls.length) : Took (calls ++ rest) i h ↔ Took calls i h := by
  have hcall : (calls ++ rest)[i]? = calls[i]? := List.getElem?_append_left hi
  have htake : (calls ++ rest).take i = calls.take i := List.take_append_of_le_length hi.le
  constructor
  · intro ht
    exact ⟨hcall ▸ ht.call, htake ▸ ht.taken⟩
  · intro ht
    exact ⟨hcall.symm ▸ ht.call, htake.symm ▸ ht.taken⟩

theorem took_concat_iff {calls : List Handler} {i : Nat} {h k : Handler} :
    Took (calls ++ [h]) i k ↔
      Took calls i k ∨ i = calls.length ∧ k = h ∧ ∃ r, (after calls).register h = .ok r := by
  constructor
  · intro ht
    have hlt := ht.lt
    rw [List.length_append, List.length_singleton] at hlt
    rcases Nat.lt_succ_iff_lt_or_eq.1 hlt with hi | rfl
    · exact .inl ((took_append_iff hi).1 ht)
    · obtain ⟨hcall, htaken⟩ := ht
      rw [List.getElem?_concat_length] at hcall
      obtain rfl := Option.some.inj hcall
      rw [List.take_left] at htaken
      exact .inr ⟨rfl, rfl, htaken⟩
  · rintro (ht | ⟨rfl, rfl, htaken⟩)
    · exact (took_append_iff ht.lt).2 ht
    · exact ⟨List.getElem?_concat_length, by rwa [List.take_left]⟩

/-- The handlers of a registry are those of the calls that went through. -/
theorem mem_handlers_after_iff {calls : List Handler} {k : Handler} :
    k ∈ (after calls).handlers ↔ ∃ i, Took calls i k := by
  induction calls using List.reverseRecOn with
  | nil => exact iff_of_false List.not_mem_nil fun ⟨i, ht⟩ => absurd ht.lt (Nat.not_lt_zero i)
  | append_singleton calls h ih =>
    simp only [took_concat_iff, exists_or, exists_eq_left, ← ih, after_concat]
    cases hr : (after calls).register h with
    | error error =>
      rw [attempt_of_error hr]
      simp
    | ok r =>
      rw [attempt_of_ok hr, (register_eq_ok hr).1, List.mem_append, List.mem_singleton]
      simp

theorem Took.not_lt_of_answers {calls : List Handler} {i j : Nat} {h k : Handler} {text : String}
    (hi : Took calls i h) (hj : Took calls j k) (hh : h.Answers text) (hk : k.Answers text) :
    ¬i < j := by
  intro hlt
  obtain ⟨name, hname, hsame⟩ := hk
  have hanswers : h.Answers name := by
    rw [Handler.answers_iff] at hh ⊢
    rwa [sameName_iff.1 hsame]
  have hearlier : Took (calls.take j) i h := by
    rw [← List.take_append_drop j calls] at hi
    have hlength : (calls.take j).length = j := List.length_take_of_le hj.lt.le
    exact (took_append_iff (hlength.symm ▸ hlt)).1 hi
  obtain ⟨error, herror⟩ := register_eq_error_iff.2
    ⟨h, mem_handlers_after_iff.2 ⟨i, hearlier⟩, name, hname, hanswers⟩
  obtain ⟨r, hr⟩ := hj.taken
  cases hr.symm.trans herror

/-- Of the calls that went through, at most one answers to a text. -/
theorem Took.eq_of_answers {calls : List Handler} {i j : Nat} {h k : Handler} {text : String}
    (hi : Took calls i h) (hj : Took calls j k) (hh : h.Answers text) (hk : k.Answers text) :
    i = j :=
  Nat.le_antisymm (Nat.not_lt.1 (hj.not_lt_of_answers hi hk hh))
    (Nat.not_lt.1 (hi.not_lt_of_answers hj hh hk))

theorem get?_after_eq_some_iff {calls : List Handler} {text : String} {h : Handler} :
    (after calls).get? text = some h ↔ ∃ i, Took calls i h ∧ h.Answers text := by
  constructor
  · intro hget
    obtain ⟨hmem, hkey⟩ := exists_of_get? hget
    obtain ⟨i, hi⟩ := mem_handlers_after_iff.1 hmem
    exact ⟨i, hi, Handler.answers_iff.2 hkey⟩
  · rintro ⟨i, hi, hanswers⟩
    cases hget : (after calls).get? text with
    | none =>
      exact absurd (Handler.answers_iff.1 hanswers)
        (get?_eq_none_iff.1 hget h (mem_handlers_after_iff.2 ⟨i, hi⟩))
    | some k =>
      obtain ⟨hmem, hkey⟩ := exists_of_get? hget
      obtain ⟨j, hj⟩ := mem_handlers_after_iff.1 hmem
      obtain rfl := hi.eq_of_answers hj hanswers (Handler.answers_iff.2 hkey)
      exact hj.call.symm.trans hi.call

/-- A call leaves no trace if it is refused. -/
theorem after_append_cons {calls : List Handler} {h : Handler} {error : RegistryError}
    (herror : (after calls).register h = .error error) (rest : List Handler) :
    after (calls ++ h :: rest) = after (calls ++ rest) := by
  rw [after, after, List.foldl_append, List.foldl_append, List.foldl_cons]
  exact congrArg (rest.foldl attempt ·) (attempt_of_error herror)

/-- After any calls, a call is refused just when one of its names is, but for the case of ASCII
letters, a name of a call that went through, and then no later registry knows of it. A text finds
the handler that a call registered under such a name; there is at most one such call. -/
theorem registration (calls : List Handler) :
    (∀ h, (∃ error, (after calls).register h = .error error) ↔
      ∃ i k, Took calls i k ∧ ∃ name ∈ h.names, k.Answers name) ∧
    (∀ h, (∃ error, (after calls).register h = .error error) →
      ∀ rest, after (calls ++ h :: rest) = after (calls ++ rest)) ∧
    (∀ text h, (after calls).get? text = some h ↔ ∃ i, Took calls i h ∧ h.Answers text) ∧
    ∀ text i j h k, Took calls i h → Took calls j k → h.Answers text → k.Answers text →
      i = j := by
  refine ⟨fun h => ?_, fun h ⟨_, herror⟩ rest => after_append_cons herror rest,
    fun text h => get?_after_eq_some_iff, fun text i j h k hi hj => hi.eq_of_answers hj⟩
  rw [register_eq_error_iff]
  constructor
  · rintro ⟨k, hk, hname⟩
    obtain ⟨i, hi⟩ := mem_handlers_after_iff.1 hk
    exact ⟨i, k, hi, hname⟩
  · rintro ⟨i, k, hi, hname⟩
    exact ⟨k, mem_handlers_after_iff.2 ⟨i, hi⟩, hname⟩

/-- A command that repeats one of its own names. -/
def shout : Handler :=
  { Handler.plain "Shout" [] fun _ => .ok .endBlock with aliases := ["yell", "YELL"] }

/-- A command under a name of another one. -/
def cry : Handler :=
  { Handler.plain "cry" [] fun _ => .ok .endBlock with aliases := ["sHoUt"] }

theorem registration_shout :
    (∃ error, (after [shout]).register cry = .error error) ∧
      after ([shout] ++ cry :: [shout]) = after ([shout] ++ [shout]) ∧
      (after [shout]).get? "yElL" = some shout := by
  have hrun : ((after []).register shout).toOption.isSome = true := by
    decide +kernel
  obtain ⟨r, hr⟩ := Option.isSome_iff_exists.1 hrun
  have htook : Took [shout] 0 shout := by
    refine ⟨rfl, r, ?_⟩
    rw [List.take_zero]
    exact eq_ok_of_toOption hr
  have hshout : shout.Answers "sHoUt" := ⟨"Shout", List.mem_cons_self, by decide +kernel⟩
  have hyell : shout.Answers "yElL" :=
    ⟨"yell", List.mem_cons_of_mem _ List.mem_cons_self, by decide +kernel⟩
  obtain ⟨hrefused, htrace, hget, -⟩ := registration [shout]
  have hcry := (hrefused cry).2
    ⟨0, shout, htook, "sHoUt", List.mem_cons_of_mem _ List.mem_cons_self, hshout⟩
  exact ⟨hcry, htrace cry hcry [shout], (hget "yElL" shout).2 ⟨0, htook, hyell⟩⟩

end Registry

end Playhead
