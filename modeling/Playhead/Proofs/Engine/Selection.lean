import Playhead.Proofs.Engine.Operation
import Playhead.Proofs.Services.Task
import Playhead.Proofs.Standing.Shelf

/-!
What a selection that fails leaves behind: no script is started, and no variable is assigned unless
the script of the option cannot be read.
-/

namespace Playhead

/-- What the assignments of an option make of the variables. -/
def ChoiceOption.Assigns (o : ChoiceOption) (vars vars' : Option VariableStore) : Prop :=
  ∃ text assignments v v', o.set = some text ∧ Assignment.parseAll text = .ok assignments ∧
    vars = some v ∧ v.apply assignments = .ok v' ∧ vars' = some v'

/-- Dropping the command in flight changes no services unless the command is one of the host. -/
theorem Playback.services_cancelActive (p : Playback) :
    p.cancelActive.services = p.services ∨ ∃ a, p.player.active = some a ∧ a.task.IsHost ∧
      p.cancelActive.services = a.task.cancel p.services := by
  unfold cancelActive
  cases ha : p.player.active with
  | none => exact .inl rfl
  | some a =>
    by_cases hhost : a.task.IsHost
    · exact .inr ⟨a, rfl, hhost, rfl⟩
    · exact .inl (Task.cancel_eq hhost p.services)

namespace Engine

/-- The script of an option cannot be read. -/
def Unreadable (e : Engine) (o : ChoiceOption) (err : EngineError) : Prop :=
  ∃ text why, o.script = some text ∧
    Document.parse e.registry e.library.waitByDefault "choice" text = .error why ∧
    err = .ofLibrary (.script why)

/-- What a selection that fails may have done to the variables. -/
inductive Refused (e : Engine) (index : Nat) (err : EngineError) :
    Option VariableStore → Prop where
  | nothing : Refused e index err e.services.variableStore
  /-- Playback stops where the jump of the option leads nowhere, and a command of the host that is
  in flight is dropped. -/
  | dropped {o : ChoiceOption} {a : ActiveCommand} {s : ServiceSet} {why : JumpError}
      (ho : e.services.pendingChoices[index]? = some o) (hgoto : o.goto ≠ none)
      (herr : err = .jump why) (ha : e.player.active = some a) (hhost : a.task.IsHost)
      (hs : s.variableStore = e.services.variableStore) :
      Refused e index err (a.task.cancel s).variableStore
  /-- The option is assigned before its script turns out to be none. -/
  | assigned {o : ChoiceOption} {vars : Option VariableStore}
      (ho : e.services.pendingChoices[index]? = some o) (hscript : e.Unreadable o err)
      (hset : o.Assigns e.services.variableStore vars) : Refused e index err vars

variable {e e' : Engine} {index : Nat} {o : ChoiceOption} {err : EngineError}

/-- Telling where an option leads changes no more than which scripts are held. -/
theorem choiceDestination_ok {goto : Option String} {destination : Option (Document × Nat)}
    (h : e.choiceDestination index goto = (e', .ok destination)) :
    e'.services = e.services ∧ e'.transients = e.transients ∧ e'.registry = e.registry ∧
      e'.library.waitByDefault = e.library.waitByDefault := by
  unfold choiceDestination at h
  split at h
  · cases h
    exact ⟨rfl, rfl, rfl, rfl⟩
  · split at h
    · cases h
      exact ⟨rfl, rfl, rfl, rfl⟩
    · rename_i target _
      obtain ⟨k, hk, hp⟩ := Playback.resolveJump_library e.env e.playback target
      generalize e.playback.resolveJump e.env target = r at h hp
      obtain ⟨p, why | found⟩ := r
      · cases h
      · obtain rfl : p = { e.playback with library := k } := hp
        cases h
        exact ⟨rfl, rfl, rfl, hk⟩

theorem Refused.of_choiceDestination (ho : e.services.pendingChoices[index]? = some o)
    (h : e.choiceDestination index o.goto = (e', .error err)) :
    e'.transients = e.transients ∧ e.Refused index err e'.services.variableStore := by
  unfold choiceDestination at h
  split at h
  · cases h
  · split at h
    · cases h
    · rename_i text hgoto _ target _
      obtain ⟨k, -, hp⟩ := Playback.resolveJump_library e.env e.playback target
      generalize e.playback.resolveJump e.env target = r at h hp
      obtain ⟨p, why | found⟩ := r
      · obtain rfl : p = { e.playback with library := k } := hp
        obtain ⟨q, hq⟩ : ∃ q : Playback, q = ({ e.playback with library := k } :
          Playback).withServices { e.services with
            choices := e.services.choices.map fun _ => .empty } := ⟨_, rfl⟩
        have hvars : q.services.variableStore = e.services.variableStore := by rw [hq]; rfl
        have hactive : q.player.active = e.player.active := by rw [hq]; rfl
        have herr : err = .jump why := (Except.error.inj (congrArg Prod.snd h)).symm
        have hstop : e' = { e with playback := q.stop (.fault why.message) } := by
          rw [hq]
          exact (congrArg Prod.fst h).symm
        have hservices : e'.services = q.cancelActive.services := by rw [hstop]; rfl
        refine ⟨by rw [hstop], ?_⟩
        rw [hservices]
        rcases q.services_cancelActive with hsame | ⟨a, ha, hhost, hdropped⟩
        · rw [hsame, hvars]
          exact .nothing
        · rw [hdropped]
          exact .dropped ho (by rw [hgoto]; exact Option.some_ne_none text) herr
            (hactive ▸ ha) hhost hvars
      · cases h

theorem applyChoiceSet_frame (e : Engine) (o : ChoiceOption) :
    (e.applyChoiceSet o).transients = e.transients ∧
      (e.applyChoiceSet o).registry = e.registry ∧ (e.applyChoiceSet o).library = e.library := by
  unfold applyChoiceSet
  split
  · exact ⟨rfl, rfl, rfl⟩
  · dsimp only
    split <;> exact ⟨rfl, rfl, rfl⟩

/-- The variables of an option are assigned all together or not at all. -/
theorem applyChoiceSet_variables (e : Engine) (o : ChoiceOption) :
    (e.applyChoiceSet o).services.variableStore = e.services.variableStore ∨
      o.Assigns e.services.variableStore (e.applyChoiceSet o).services.variableStore := by
  unfold applyChoiceSet
  split
  · exact .inl rfl
  · rename_i text hset
    dsimp only
    split
    · rename_i s happlied
      obtain ⟨assignments, hread, happlied⟩ := exists_of_bind_ok happlied
      cases hv : e.services.variableStore with
      | none =>
        rw [hv] at happlied
        cases happlied
        exact .inl hv
      | some v =>
        rw [hv] at happlied
        obtain ⟨v', hv', happlied⟩ := exists_of_bind_ok happlied
        cases happlied
        exact .inr ⟨text, assignments, v, v', hset, hread, rfl, hv', rfl⟩
    · exact .inl rfl

theorem startChoiceScript_error (h : e.startChoiceScript o = (e', .error err)) :
    e'.services = e.services ∧ e'.transients = e.transients ∧ e.Unreadable o err := by
  unfold startChoiceScript at h
  split at h
  · cases h
  · rename_i text hscript
    unfold playTransient at h
    dsimp only at h
    cases hp : Document.parse (e.withScopes (e.playback.scopes.child e.player.scope).2).registry
        (e.withScopes (e.playback.scopes.child e.player.scope).2).library.waitByDefault
        "choice" text with
    | error why =>
      rw [hp] at h
      cases h
      exact ⟨rfl, rfl, text, why, hscript, hp, rfl⟩
    | ok d =>
      rw [hp] at h
      cases h

/-- An option is assigned all the same when its script cannot be read. -/
theorem startChoiceScript_applyChoiceSet_error
    (h : (e.applyChoiceSet o).startChoiceScript o = (e', .error err)) :
    e'.transients = e.transients ∧ e.Unreadable o err ∧
      (e'.services.variableStore = e.services.variableStore ∨
        o.Assigns e.services.variableStore e'.services.variableStore) := by
  obtain ⟨htransients, hregistry, hlibrary⟩ := e.applyChoiceSet_frame o
  have hset := e.applyChoiceSet_variables o
  obtain ⟨hservices, htransients', hunreadable⟩ := startChoiceScript_error h
  unfold Unreadable at hunreadable
  rw [hregistry, hlibrary] at hunreadable
  exact ⟨htransients'.trans htransients, hunreadable, hservices ▸ hset⟩

/-- A selection that fails starts no script. It assigns no variable, unless the script of the
option cannot be read. -/
theorem selectChoice_refused (h : e.selectChoice index = (e', .error err)) :
    e'.transients = e.transients ∧ e.Refused index err e'.services.variableStore := by
  unfold selectChoice at h
  split at h
  · cases h
    exact ⟨rfl, .nothing⟩
  · cases ho : e.services.pendingChoices[index]? with
    | none =>
      rw [ho] at h
      cases h
      exact ⟨rfl, .nothing⟩
    | some o =>
      rw [ho] at h
      dsimp only at h
      generalize hgoto : e.choiceDestination index o.goto = r at h
      obtain ⟨u, why | destination⟩ := r
      · cases h
        exact Refused.of_choiceDestination ho hgoto
      · obtain ⟨hservices, htransients, hregistry, hwait⟩ := choiceDestination_ok hgoto
        dsimp only at h
        obtain ⟨v, hv⟩ : ∃ v, v = u.withServices { u.services with
          choices := u.services.choices.map fun _ => .empty } := ⟨_, rfl⟩
        rw [← hv] at h
        have hvars : v.services.variableStore = e.services.variableStore := by
          rw [hv, ← hservices]
          rfl
        have hread : v.registry = e.registry ∧
            v.library.waitByDefault = e.library.waitByDefault := by
          rw [hv]
          exact ⟨hregistry, hwait⟩
        generalize hscript : (v.applyChoiceSet o).startChoiceScript o = r at h
        obtain ⟨x, why | _⟩ := r
        · cases h
          obtain ⟨hx, hunreadable, hset⟩ := startChoiceScript_applyChoiceSet_error hscript
          refine ⟨by rw [hx, hv, ← htransients]; rfl, ?_⟩
          rw [hvars] at hset
          rcases hset with hsame | hassigns
          · rw [hsame]
            exact .nothing
          · refine .assigned ho ?_ hassigns
            unfold Unreadable at hunreadable
            rwa [hread.1, hread.2] at hunreadable
        · dsimp only at h
          split at h <;> cases h

/-- An option that leads to a label that is not there. -/
def astray : String := "@choice A set:x=1 goto:.Missing\n@print end\n"

/-- An option whose script is never closed. -/
def unclosed : String := "@choice A set:x=1 do:\"@if true\"\n@print end\n"

/-- A run after which the options of a script are open. -/
def untilChoice (text : String) : List Operation :=
  [.loadScript "tale" text, .playFrom "tale" 0, .input (.tick 0)]

/-- Nothing is assigned where the jump leads nowhere. -/
theorem selectChoice_refused_astray : ∃ e e' why, build {} {} = .ok e ∧
    (e.performAll (untilChoice astray)).selectChoice 0 = (e', .error why) ∧
    why = .jump (.unknownLabel "tale" "Missing") ∧
    e'.transients = (e.performAll (untilChoice astray)).transients ∧
    (e.performAll (untilChoice astray)).Refused 0 why e'.services.variableStore := by
  have hrun : ((build {} {}).toOption.any fun e =>
      ((e.performAll (untilChoice astray)).selectChoice 0).2 =
        .error (.jump (.unknownLabel "tale" "Missing"))) = true := by
    decide +kernel
  obtain ⟨e, he, hcheck⟩ := (Option.any_eq_true _ _).1 hrun
  have hfails := of_decide_eq_true hcheck
  generalize h : (e.performAll (untilChoice astray)).selectChoice 0 = r at hfails
  obtain ⟨e', result⟩ := r
  obtain rfl : result = _ := hfails
  exact ⟨e, e', _, eq_ok_of_toOption he, h, rfl, selectChoice_refused h⟩

/-- The option is assigned although its script cannot be read. -/
theorem selectChoice_assigns_unclosed : ∃ e e' err, build {} {} = .ok e ∧
    (e.performAll (untilChoice unclosed)).selectChoice 0 = (e', .error err) ∧
    e'.services.variableStore ≠ (e.performAll (untilChoice unclosed)).services.variableStore := by
  have hrun : ((build {} {}).toOption.any fun e =>
      let r := (e.performAll (untilChoice unclosed)).selectChoice 0
      r.2.toOption = none ∧ (r.1.services.variableStore.bind (·.get? "x")).isSome ∧
        ((e.performAll (untilChoice unclosed)).services.variableStore.bind
          (·.get? "x")).isNone) = true := by
    decide +kernel
  obtain ⟨e, he, hcheck⟩ := (Option.any_eq_true _ _).1 hrun
  obtain ⟨hfails, hset, hunset⟩ := of_decide_eq_true hcheck
  generalize h : (e.performAll (untilChoice unclosed)).selectChoice 0 = r at hfails hset
  obtain ⟨e', err | _⟩ := r
  · refine ⟨e, e', err, eq_ok_of_toOption he, h, fun hsame => ?_⟩
    rw [show e'.services.variableStore = _ from hsame, Option.isNone_iff_eq_none.1 hunset] at hset
    cases hset
  · cases hfails

end Engine

end Playhead
