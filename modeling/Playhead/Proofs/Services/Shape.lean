import Playhead.Service.Set

/-!
The services of a set: its shape, which says which services there are without what they hold, and
what they hold, service by service and scope by scope.
-/

namespace Playhead

namespace HostService

/-- The service without its state. -/
def blank (h : HostService) : HostService :=
  { h with state := .null }

theorem eq_of_blank {h k : HostService} (he : h.blank = k.blank) :
    h.id = k.id ∧ h.scopes = k.scopes ∧ h.record? = k.record? ∧ h.restore? = k.restore? := by
  cases h
  cases k
  cases he
  exact ⟨rfl, rfl, rfl, rfl⟩

end HostService

namespace ServiceSet

/-- Which services there are, without their states. -/
def shape (s : ServiceSet) : ServiceSet where
  variableStore := s.variableStore.map fun _ => default
  textLog := s.textLog.map fun _ => default
  choices := s.choices.map fun _ => default
  callStack := s.callStack.map fun _ => default
  played := s.played.map fun _ => default
  preferences := s.preferences.map fun _ => default
  host := s.host.map HostService.blank

variable {s t : ServiceSet}

theorem idOf_shape (s : ServiceSet) : s.shape.idOf = s.idOf := by
  funext key
  cases key with
  | host i =>
    simp only [idOf, shape, List.getElem?_map, Option.map_map]
    rfl
  | _ => rfl

theorem scopesOf_shape (s : ServiceSet) : s.shape.scopesOf = s.scopesOf := by
  funext key
  cases key with
  | host i =>
    simp only [scopesOf, shape, List.getElem?_map, Option.map_map]
    rfl
  | _ => rfl

theorem keys_shape (s : ServiceSet) : s.shape.keys = s.keys := by
  unfold keys shape
  simp only [Option.isSome_map, List.length_map]

theorem inScope_shape (s : ServiceSet) (scope : StateScope) :
    s.shape.inScope scope = s.inScope scope := by
  unfold inScope
  rw [keys_shape, scopesOf_shape]

theorem host_of_shape (h : s.shape = t.shape) {i : Nat} {k : HostService}
    (hk : s.host[i]? = some k) : ∃ k', t.host[i]? = some k' ∧ k.blank = k'.blank := by
  have hmap : (s.host.map HostService.blank)[i]? = (t.host.map HostService.blank)[i]? :=
    congrArg (·[i]?) (congrArg ServiceSet.host h)
  rw [List.getElem?_map, List.getElem?_map, hk] at hmap
  obtain ⟨k', hk', he⟩ := Option.map_eq_some_iff.1 hmap.symm
  exact ⟨k', hk', he.symm⟩

theorem host_eq_nil_of_shape (h : s.shape = t.shape) (ht : t.host = []) : s.host = [] := by
  have hmap : s.host.map HostService.blank = t.host.map HostService.blank :=
    congrArg ServiceSet.host h
  rw [ht] at hmap
  exact List.map_eq_nil_iff.1 hmap

theorem shape_setHost {i : Nat} {k k' : HostService} (hk : s.host[i]? = some k)
    (he : k'.blank = k.blank) : (s.setHost i k').shape = s.shape := by
  have hhost : (s.host.set i k').map HostService.blank = s.host.map HostService.blank := by
    rw [List.map_set, he]
    refine List.ext_getElem? fun n => ?_
    rw [List.getElem?_set, List.getElem?_map]
    split
    · rename_i hn
      cases hn
      obtain ⟨hi, -⟩ := List.getElem?_eq_some_iff.1 hk
      rw [List.length_map, if_pos hi, hk]
      rfl
    · rfl
  unfold shape
  exact congrArg _ hhost

theorem shape_reset (s : ServiceSet) (scope : StateScope) (key : ServiceKey) :
    (s.reset scope key).shape = s.shape := by
  cases key with
  | host i =>
    cases hk : s.host[i]? with
    | none => simp only [reset, hk]
    | some k =>
      simp only [reset, hk]
      exact shape_setHost hk rfl
  | variableStore =>
    unfold reset shape
    simp only [Option.map_map]
    rfl
  | _ =>
    unfold reset shape
    simp only [Option.map_map]
    rfl

theorem shape_refuse (s : ServiceSet) (scope : StateScope) (key : ServiceKey) (j : Json) :
    (s.refuse scope key j).shape = s.shape := by
  cases key with
  | host i =>
    cases hk : s.host[i]? with
    | none => simp only [refuse, hk]
    | some k =>
      simp only [refuse, hk]
      exact shape_setHost hk rfl
  | _ => rfl

theorem ids_append (s : ServiceSet) (k : HostService) :
    ({ s with host := s.host ++ [k] } : ServiceSet).ids = s.ids ++ [k.id] := by
  have hkeys : ({ s with host := s.host ++ [k] } : ServiceSet).keys =
      s.keys ++ [.host s.host.length] := by
    unfold keys
    simp [List.range_succ]
  unfold ids
  rw [hkeys, List.map_append]
  congr 1
  · refine List.map_congr_left fun key hkey => ?_
    cases key with
    | host i =>
      have hi : i < s.host.length := by simpa [keys] using hkey
      simp only [idOf, List.getElem?_append_left hi]
    | _ => rfl
  · simp [idOf]

/-- Services of the host are taken in under names of their own. -/
theorem register_eq_ok {k : HostService} (h : s.register k = .ok t) :
    t = { s with host := s.host ++ [k] } ∧ k.id ∉ s.ids ∧ k.id.toList.head? ≠ some '@' := by
  unfold register at h
  split at h
  · cases h
  · rename_i hvalid
    have hfree : k.id.toList.head? ≠ some '@' := fun h => hvalid (by simp [h])
    split at h
    · cases h
    · rename_i hnew
      cases h
      exact ⟨rfl, fun hmem => hnew (List.contains_iff_mem.2 hmem), hfree⟩

end ServiceSet

/-- What a service holds of one scope. For a service of the host, the host says what that is. -/
inductive Part (α : Type) where
  | variables (m : NameMap Value)
  | textLog (l : TextLog)
  | choices (k : Choices)
  | callStack (k : CallStack)
  | played (p : Played)
  | prefs (p : Prefs)
  | host (a : α)

/-- The variables of a scope. -/
def VariableStore.within (v : VariableStore) (scope : StateScope) : NameMap Value :=
  if scope = .global then v.global else v.game

namespace ServiceSet

variable {α : Type} {view : HostService → StateScope → α} {s t u : ServiceSet}
  {scope scope' : StateScope} {key key' : ServiceKey} {j : Json}

/-- What a service holds of a scope, with a view of the services of the host. -/
def part? (view : HostService → StateScope → α) (s : ServiceSet) (scope : StateScope) :
    ServiceKey → Option (Part α)
  | .variableStore => s.variableStore.map fun v => .variables (v.within scope)
  | .textLog => s.textLog.map .textLog
  | .choices => s.choices.map .choices
  | .callStack => s.callStack.map .callStack
  | .played => s.played.map .played
  | .preferences => s.preferences.map fun p => .prefs p.current
  | .host index => s.host[index]?.map fun h => .host (view h scope)

/-- Two sets have the same service under a key, in the same state. -/
def AgreesAt (s t : ServiceSet) : ServiceKey → Prop
  | .variableStore => s.variableStore = t.variableStore
  | .textLog => s.textLog = t.textLog
  | .choices => s.choices = t.choices
  | .callStack => s.callStack = t.callStack
  | .played => s.played = t.played
  | .preferences => s.preferences = t.preferences
  | .host index => s.host[index]? = t.host[index]?

theorem record_eq_ok : s.record scope key = .ok j ↔ s.record? scope key = some j := by
  unfold record
  cases s.record? scope key with
  | none => exact ⟨nofun, nofun⟩
  | some j' =>
    exact ⟨fun h => congrArg some (Except.ok.inj h), fun h => congrArg _ (Option.some.inj h)⟩

theorem restore_eq_ok : s.restore scope key j = .ok u ↔ s.restore? scope key j = some u := by
  unfold restore
  cases s.restore? scope key j with
  | none => exact ⟨nofun, nofun⟩
  | some v =>
    exact ⟨fun h => congrArg some (Except.ok.inj h), fun h => congrArg _ (Option.some.inj h)⟩

theorem AgreesAt.refl (s : ServiceSet) (key : ServiceKey) : s.AgreesAt s key := by
  cases key <;> rfl

theorem AgreesAt.symm (h : s.AgreesAt t key) : t.AgreesAt s key := by
  cases key <;> exact Eq.symm h

theorem AgreesAt.trans (h : s.AgreesAt t key) (h' : t.AgreesAt u key) : s.AgreesAt u key := by
  cases key <;> exact Eq.trans h h'

theorem AgreesAt.part?_eq (h : s.AgreesAt t key) (scope : StateScope) :
    s.part? view scope key = t.part? view scope key := by
  cases key with
  | host i => exact congrArg (Option.map fun k => Part.host (view k scope)) h
  | _ => exact congrArg (Option.map _) h

theorem AgreesAt.record?_eq (h : s.AgreesAt t key) (scope : StateScope) :
    s.record? scope key = t.record? scope key := by
  cases key with
  | host i => exact congrArg (Option.bind · fun k => k.record? k.state scope) h
  | _ => exact congrArg (Option.map _) h

/-- Sets that agree at every service are the same. -/
theorem eq_of_agreesAt (h : ∀ key, s.AgreesAt t key) : s = t := by
  have hhost : s.host = t.host := List.ext_getElem? fun i => h (.host i)
  have hvariables : s.variableStore = t.variableStore := h .variableStore
  have hlog : s.textLog = t.textLog := h .textLog
  have hchoices : s.choices = t.choices := h .choices
  have hcalls : s.callStack = t.callStack := h .callStack
  have hplayed : s.played = t.played := h .played
  have hprefs : s.preferences = t.preferences := h .preferences
  cases s
  cases t
  simp_all

theorem agreesAt_setHost {i : Nat} (k : HostService) (hne : key ≠ .host i) :
    (s.setHost i k).AgreesAt s key := by
  cases key with
  | host n => exact List.getElem?_set_ne fun hi : i = n => hne (congrArg _ hi.symm)
  | _ => rfl

/-- Taking in a record leaves all other services as they are. -/
theorem agreesAt_restore (h : s.restore? scope key j = some u) (hne : key' ≠ key) :
    u.AgreesAt s key' := by
  cases key with
  | variableStore | preferences =>
    obtain ⟨old, -, h⟩ := Option.bind_eq_some_iff.1 h
    obtain ⟨new, -, h⟩ := Option.bind_eq_some_iff.1 h
    cases h
    cases key' <;> first | rfl | exact absurd rfl hne
  | textLog | choices | callStack | played =>
    obtain ⟨new, -, h⟩ := Option.map_eq_some_iff.1 h
    cases h
    cases key' <;> first | rfl | exact absurd rfl hne
  | host i =>
    obtain ⟨k, -, h⟩ := Option.bind_eq_some_iff.1 h
    obtain ⟨state, -, h⟩ := Option.bind_eq_some_iff.1 h
    cases h
    exact agreesAt_setHost _ hne

/-- Taking in a record leaves the same services. -/
theorem shape_of_restore (hmem : key ∈ s.keys) (h : s.restore? scope key j = some u) :
    u.shape = s.shape := by
  cases key with
  | variableStore | preferences =>
    obtain ⟨old, hold, h⟩ := Option.bind_eq_some_iff.1 h
    obtain ⟨new, -, h⟩ := Option.bind_eq_some_iff.1 h
    cases h
    unfold shape
    rw [hold]
    rfl
  | textLog | choices | callStack | played =>
    obtain ⟨new, -, h⟩ := Option.map_eq_some_iff.1 h
    obtain ⟨old, hold⟩ := Option.isSome_iff_exists.1 (by simpa [keys] using hmem)
    cases h
    unfold shape
    rw [hold]
    rfl
  | host i =>
    obtain ⟨k, hk, h⟩ := Option.bind_eq_some_iff.1 h
    obtain ⟨state, -, h⟩ := Option.bind_eq_some_iff.1 h
    cases h
    exact shape_setHost hk rfl

theorem agreesAt_refuse (s : ServiceSet) (scope : StateScope) (j : Json) (hne : key' ≠ key) :
    (s.refuse scope key j).AgreesAt s key' := by
  cases key with
  | host i =>
    unfold refuse
    dsimp only
    split
    · exact agreesAt_setHost _ hne
    · exact .refl s key'
  | _ => exact .refl s key'

theorem agreesAt_reset (s : ServiceSet) (scope : StateScope) (hne : key' ≠ key) :
    (s.reset scope key).AgreesAt s key' := by
  cases key with
  | host i =>
    unfold reset
    dsimp only
    split
    · exact agreesAt_setHost _ hne
    · exact .refl s key'
  | _ => cases key' <;> first | rfl | exact absurd rfl hne

/-- Of the built-in services only the variables are of two scopes. -/
theorem eq_of_mem_scopesOf (hbuiltin : ∀ i, key ≠ .host i) (hscope : scope ∈ s.scopesOf key)
    (hscope' : scope' ∈ s.scopesOf key) (hne : scope' ≠ scope) : key = .variableStore := by
  cases key with
  | variableStore => rfl
  | host i => exact absurd rfl (hbuiltin i)
  | _ =>
    cases List.mem_singleton.1 hscope
    cases List.mem_singleton.1 hscope'
    exact absurd rfl hne

theorem within_apart {v w : VariableStore} {m : NameMap Value}
    (hw : w = if scope = .global then { v with global := m } else { v with game := m })
    (hscope : scope ∈ s.scopesOf .variableStore) (hscope' : scope' ∈ s.scopesOf .variableStore)
    (hne : scope' ≠ scope) : w.within scope' = v.within scope' := by
  subst hw
  unfold VariableStore.within
  simp only [scopesOf, List.mem_cons, List.not_mem_nil, or_false] at hscope hscope'
  rcases hscope with rfl | rfl <;> rcases hscope' with rfl | rfl <;>
    first | rfl | exact absurd rfl hne

/-- A built-in service that takes in a record of one scope keeps what it holds of another. -/
theorem part?_restore_apart (hbuiltin : ∀ i, key ≠ .host i) (hscope : scope ∈ t.scopesOf key)
    (hscope' : scope' ∈ t.scopesOf key) (hne : scope' ≠ scope)
    (h : s.restore? scope key j = some u) :
    u.part? view scope' key = s.part? view scope' key := by
  cases eq_of_mem_scopesOf hbuiltin hscope hscope' hne
  obtain ⟨v, hv, h⟩ := Option.bind_eq_some_iff.1 h
  obtain ⟨m, -, h⟩ := Option.bind_eq_some_iff.1 h
  cases h
  show some (Part.variables (VariableStore.within _ scope')) =
    s.variableStore.map fun v => .variables (v.within scope')
  rw [within_apart rfl hscope hscope' hne, hv]
  rfl

theorem part?_reset_apart (hbuiltin : ∀ i, key ≠ .host i) (hscope : scope ∈ t.scopesOf key)
    (hscope' : scope' ∈ t.scopesOf key) (hne : scope' ≠ scope) :
    (s.reset scope key).part? view scope' key = s.part? view scope' key := by
  cases eq_of_mem_scopesOf hbuiltin hscope hscope' hne
  unfold reset part?
  dsimp only
  rw [Option.map_map]
  refine Option.map_congr fun v _ => congrArg Part.variables ?_
  exact within_apart rfl hscope hscope' hne

end ServiceSet

end Playhead
