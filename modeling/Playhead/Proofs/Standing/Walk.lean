import Playhead.Playback.Tick
import Playhead.Proofs.Script.Outline
import Playhead.Proofs.Standing.Sound

/-!
What an outline of `set` and `print` commands tells, read as a tree: of a block the first branch
whose condition evaluates to true, else the one of `else`, else nothing.

The steps that a standing makes through an outline tell what the outline tells.
-/

namespace Playhead

namespace Command

/-- Whether a condition evaluates to true. -/
def evaluatesTrue (source : String) : Option VariableStore → Bool
  | some vars => (Expr.condition source vars.get? matches .ok true)
  | none => false

/-- Whether the condition of a branch evaluates to true. -/
def holds (c : Command) (vars : Option VariableStore) : Bool :=
  match c.requireExpression "condition" with
  | .ok source => evaluatesTrue source vars
  | .error _ => false

/-- Whether a command has no condition on it or one that evaluates to true. -/
def passes (c : Command) (vars : Option VariableStore) : Bool :=
  match c.condition with
  | .ok none => true
  | .ok (some source) => evaluatesTrue source vars
  | .error _ => false

/-- The line that a `print` command adds to the log, unless it faults. -/
def line? (c : Command) : Option LogEntry := do
  let text ← (c.requireText "text").toOption
  let author ← (c.text "author").toOption
  let _ ← (c.flag "wait").toOption
  some ⟨author, text⟩

/-- The assignments of a `set` command, unless they cannot be read. -/
def assignments? (c : Command) : Option (List Assignment) := do
  let source ← (c.requireExpression "expression").toOption
  (Assignment.parseAll source).toOption

end Command

/-- The variables, the log and the indices of the commands and conditions that were come to. -/
structure Telling where
  vars : Option VariableStore
  log : Option TextLog
  trace : List Nat

namespace Telling

def visit (t : Telling) (index : Nat) : Telling :=
  { t with trace := t.trace ++ [index] }

def print (t : Telling) (c : Command) : Telling :=
  match c.line? with
  | some e => { t with log := t.log.map (·.push e) }
  | none => t

/-- Either every assignment takes place or none. -/
def set (t : Telling) (c : Command) : Telling :=
  match t.vars, c.assignments? with
  | some vars, some assignments =>
    match vars.apply assignments with
    | .ok vars => { t with vars := some vars }
    | .error _ => t
  | _, _ => t

def leaf (t : Telling) (index : Nat) (c : Command) : Telling :=
  if c.passes t.vars then
    if c.name = "set" then (t.visit index).set c else (t.visit index).print c
  else t

end Telling

mutual

def Outline.tell (index : Nat) (t : Telling) : Outline → Telling
  | .nil => t
  | .leaf c _ rest => rest.tell (index + 1) (t.leaf index c)
  | .block c _ body more rest =>
    let moreAt := index + 1 + body.size
    rest.tell (moreAt + more.size)
      (if c.holds t.vars then body.tell (index + 1) (t.visit index)
        else more.tell moreAt (t.visit index))

/-- What the further branches of a block tell, none of the branches before them being taken. -/
def Branches.tell (index : Nat) (t : Telling) : Branches → Telling
  | .close _ _ => t
  | .last _ _ body _ _ => body.tell (index + 1) t
  | .also c _ body more =>
    if c.holds t.vars then body.tell (index + 1) (t.visit index)
    else more.tell (index + 1 + body.size) (t.visit index)

end

namespace Document

/-- Whether a command only marks the start or the end of a branch. -/
def marks (d : Document) (s : Spot) : Bool :=
  decide (s.script = d.name) &&
    match d.command? s.index with
    | some c => decide (c.role = .else ∨ c.role = .endif)
    | none => false

/-- The spot of a command or condition that an event reports. -/
def told? (d : Document) : Event → Option Spot
  | .commandExecuted s _ => if d.marks s then none else some s
  | _ => none

/-- The commands of a script from an index on. -/
def Has (d : Document) : Nat → List Command → Prop
  | _, [] => True
  | i, c :: rest => d.command? i = some c ∧ d.Has (i + 1) rest

variable {d : Document}

theorem has_append {i : Nat} {l m : List Command} :
    d.Has i (l ++ m) ↔ d.Has i l ∧ d.Has (i + l.length) m := by
  induction l generalizing i with
  | nil => simp [Has]
  | cons c rest ih =>
    simp only [List.cons_append, Has, ih, List.length_cons, and_assoc]
    rw [show i + 1 + rest.length = i + (rest.length + 1) by omega]

theorem has_drop (d : Document) (l : List Command) (i : Nat)
    (h : d.commands.toList.drop i = l) : d.Has i l := by
  induction l generalizing i with
  | nil => exact trivial
  | cons c rest ih =>
    have hlt : i < d.commands.toList.length := by
      rw [← Nat.not_le]
      intro hge
      rw [List.drop_eq_nil_of_le hge] at h
      cases h
    rw [List.drop_eq_getElem_cons hlt] at h
    obtain ⟨hc, hrest⟩ := List.cons.inj h
    refine ⟨?_, ih (i + 1) hrest⟩
    rw [← hc]
    exact Array.getElem?_eq_getElem hlt

theorem has_commands (d : Document) : d.Has 0 d.commands.toList :=
  d.has_drop _ 0 rfl

end Document

namespace Telling

/-- A set of services with the variables and the log of a telling. -/
def on (t : Telling) (s : ServiceSet) : ServiceSet :=
  { s with variableStore := t.vars, textLog := t.log }

end Telling

namespace Builtin

/-- The commands of conditional blocks, and `set` and `print`. -/
def tellable : List String :=
  ["if", "elseif", "else", "endif", "set", "print"]

/-- A command that can be told, as a registry knows it. -/
def Tells (r : Registry) (c : Command) : Prop :=
  c.name ∈ tellable ∧ c.Known r

theorem handler_of_tells {r : Registry} (hr : r.Sound) {c : Command} (hc : Tells r c) :
    ∃ h, r.get? c.name = some h ∧
      match c.role with
      | .none => c.name = "set" ∧ h = set ∨ c.name = "print" ∧ h = print
      | .if => h = ifBlock
      | .elseif => h = elseifBranch
      | .else => h = elseBranch
      | .endif => h = endBlock := by
  obtain ⟨hn, h, hh, -, hrole⟩ := hc
  refine ⟨h, hh, ?_⟩
  have hfind : ∀ k ∈ handlers, c.name = k.name → h = k := by
    intro k hk hname
    rw [hname, hr.builtin k hk] at hh
    exact (Option.some.inj hh).symm
  rw [← hrole]
  simp only [tellable, List.mem_cons, List.not_mem_nil, or_false] at hn
  rcases hn with hn | hn | hn | hn | hn | hn
  · rw [hfind ifBlock (by simp [handlers]) hn]
    rfl
  · rw [hfind elseifBranch (by simp [handlers]) hn]
    rfl
  · rw [hfind elseBranch (by simp [handlers]) hn]
    rfl
  · rw [hfind endBlock (by simp [handlers]) hn]
    rfl
  · rw [hfind set (by simp [handlers]) hn]
    exact .inl ⟨hn, rfl⟩
  · rw [hfind print (by simp [handlers]) hn]
    exact .inr ⟨hn, rfl⟩

variable {c : Command} {spot : Spot} {s : ServiceSet} {t : Telling}

theorem isWanted_on (c : Command) (t : Telling) (s : ServiceSet) :
    c.isWanted (t.on s) = c.passes t.vars := by
  unfold Command.isWanted Command.passes Command.evaluatesTrue Telling.on
  cases c.condition with
  | error e => rfl
  | ok source =>
    cases source with
    | none => rfl
    | some source => cases t.vars <;> rfl

/-- A condition that faults counts as false. -/
theorem outcome_branch (hr : c.role = .if ∨ c.role = .elseif) {k : Handler}
    (hk : k.begin c = .ok .branch) :
    ∃ done : Completion, k.outcome c spot (t.on s) = (done, t.on s) ∧
      done.flow = .branch (c.holds t.vars) := by
  have hfault : (Completion.ofFault c.role).flow = .branch false := by
    rcases hr with hr | hr <;> rw [hr] <;> rfl
  unfold Handler.outcome
  rw [hk]
  simp only [Task.step, Task.stepBranch, Task.evalCondition, Task.fault]
  unfold Command.holds Command.evaluatesTrue Telling.on
  cases c.requireExpression "condition" with
  | error e => exact ⟨_, rfl, hfault⟩
  | ok source =>
    cases t.vars with
    | none => exact ⟨_, rfl, hfault⟩
    | some vars =>
      simp only [Except.mapError, bind, Except.bind]
      cases Expr.condition source vars.get? with
      | error e => exact ⟨_, rfl, hfault⟩
      | ok b => cases b <;> exact ⟨_, rfl, rfl⟩

theorem outcome_set (hr : c.role = .none) :
    ∃ done : Completion, Builtin.set.outcome c spot (t.on s) = (done, (t.set c).on s) ∧
      done.flow = .advance := by
  have hfault : (Completion.ofFault c.role).flow = .advance := by rw [hr]; rfl
  unfold Handler.outcome Telling.set Command.assignments?
  simp only [Builtin.set, Handler.plain, Builtin.read]
  cases hs : c.requireExpression "expression" with
  | error e =>
    cases hv : t.vars <;> exact ⟨_, rfl, hfault⟩
  | ok source =>
    simp only [Except.mapError, bind, Except.bind, Except.toOption, Option.bind]
    cases ha : Assignment.parseAll source with
    | error e =>
      cases hv : t.vars <;> exact ⟨_, rfl, hfault⟩
    | ok assignments =>
      simp only [Except.map, Task.step, Task.stepAssign, Telling.on, Task.fault]
      cases hv : t.vars with
      | none =>
        refine ⟨_, ?_, hfault⟩
        simp [hv]
      | some vars =>
        dsimp only
        cases vars.apply assignments with
        | error e =>
          refine ⟨_, ?_, hfault⟩
          simp [hv]
        | ok vars' => exact ⟨_, rfl, rfl⟩

theorem outcome_print (hr : c.role = .none) :
    ∃ done : Completion, Builtin.print.outcome c spot (t.on s) = (done, (t.print c).on s) ∧
      done.flow = .advance := by
  have hfault : (Completion.ofFault c.role).flow = .advance := by rw [hr]; rfl
  unfold Handler.outcome Telling.print Command.line?
  simp only [Builtin.print, Handler.plain, Builtin.read]
  cases c.requireText "text" with
  | error e => exact ⟨_, rfl, hfault⟩
  | ok text =>
    cases c.text "author" with
    | error e => exact ⟨_, rfl, hfault⟩
    | ok author =>
      cases c.flag "wait" with
      | error e => exact ⟨_, rfl, hfault⟩
      | ok waits =>
        simp only [Except.mapError, bind, Except.bind, Except.toOption, Option.bind, Task.step,
          Task.stepPrint, Telling.on, Task.fault]
        cases hl : t.log with
        | none =>
          refine ⟨_, rfl, hfault⟩
        | some log => exact ⟨_, rfl, rfl⟩

end Builtin

namespace Standing

/-- Before the command at an index, with so many started before. -/
def before (d : Document) (index : Nat) (arrived : Bool) (played : Nat) (s : ServiceSet) :
    Standing where
  document := some d
  index := if index < d.size then some index else none
  arrived := arrived
  busy := false
  played := played
  services := s

/-- Notes of a way through a script on which no command halts or leaves it. -/
def Inside (d : Document) (l : List Note) : Prop :=
  .event (.stopped .command) ∉ l ∧ ∀ s name, .event (.commandExecuted s name) ∈ l →
    s.script = d.name ∧ ∃ c, d.command? s.index = some c ∧ c.name = name

theorem inside_append {d : Document} {l m : List Note} (hl : Inside d l) (hm : Inside d m) :
    Inside d (l ++ m) :=
  ⟨fun h => (List.mem_append.1 h).elim hl.1 hm.1,
    fun s name h => (List.mem_append.1 h).elim (hl.2 s name) (hm.2 s name)⟩

theorem inside_of_executed {d : Document} {l : List Note} (h : executed l = [])
    (hl : .event (.stopped .command) ∉ l) : Inside d l :=
  ⟨hl, fun s name hs => (starts_of_executed (P := fun _ => False) h s name hs).elim⟩

theorem told_of_executed {l : List Note} (h : executed l = []) (d : Document) :
    (l.filterMap Note.event?).filterMap d.told? = [] := by
  refine List.filterMap_eq_nil_iff.2 fun e he => ?_
  cases e with
  | commandExecuted s name =>
    exact (starts_of_executed (P := fun _ => False) h s name (Playback.mem_of_events he)).elim
  | _ => rfl

/-- The steps from one index to another tell what takes one telling to the other. -/
def Walks (w : Shelf) (d : Document) (i : Nat) (arrived : Bool) (t : Telling) (j : Nat)
    (arrived' : Bool) (t' : Telling) : Prop :=
  ∀ n s, ∃ l n', Leads w (before d i arrived n (t.on s)) l (before d j arrived' n' (t'.on s)) ∧
    Inside d l ∧ t'.trace.map (Spot.mk d.name) =
      t.trace.map (Spot.mk d.name) ++ (l.filterMap Note.event?).filterMap d.told?

variable {w : Shelf} {d : Document} {i j : Nat} {arrived arrived' : Bool} {t t' : Telling}
  {c : Command} {h : Handler}

theorem Walks.refl (w : Shelf) (d : Document) (i : Nat) (arrived : Bool) (t : Telling) :
    Walks w d i arrived t i arrived t :=
  fun n s => ⟨[], n, .refl _, ⟨List.not_mem_nil, fun _ _ h => by cases h⟩,
    (List.append_nil _).symm⟩

theorem Walks.trans {k : Nat} {arrived'' : Bool} {t'' : Telling}
    (h : Walks w d i arrived t j arrived' t') (h' : Walks w d j arrived' t' k arrived'' t'') :
    Walks w d i arrived t k arrived'' t'' := by
  intro n s
  obtain ⟨l, n', hl, hi, ht⟩ := h n s
  obtain ⟨m, n'', hm, hi', ht'⟩ := h' n' s
  refine ⟨l ++ m, n'', hl.trans hm, inside_append hi hi', ?_⟩
  rw [ht', ht, List.filterMap_append, List.filterMap_append, List.append_assoc]

/-- Leaving a command out. -/
theorem walks_pass (hc : d.command? i = some c)
    (he : ∀ s, d.entry i arrived (t.on s) = .skip j) : Walks w d i arrived t j false t := by
  intro n s
  obtain ⟨hi, -⟩ := Array.getElem?_eq_some_iff.1 hc
  have hnext : (before d i arrived n (t.on s)).next w =
      some ((before d i arrived n (t.on s)).pass d j) :=
    next_pass rfl (if_pos hi) hc rfl (he s)
  refine ⟨_, n, .one hnext, ?_, ?_⟩
  · split
    · exact ⟨List.not_mem_nil, fun _ _ h => by cases h⟩
    · exact ⟨by simp, fun _ _ h => by simp at h⟩
  · split <;> simp [Note.event?, Document.told?]

/-- A flow to the next command or into a branch stays in its script. -/
theorem follow_inside {flow : Flow} (hf : (flow = .advance ∧ j = i + 1 ∧ arrived' = false) ∨
      ∃ b, flow = .branch b ∧ d.branchNext i b = (j, arrived')) :
    flow ≠ .stop ∧ w.follow d i flow = .ok (d, j) ∧
      ∀ u : Standing, u.arrived = false → u.arrives d i flow = arrived' := by
  rcases hf with ⟨rfl, rfl, rfl⟩ | ⟨b, rfl, hb⟩
  · exact ⟨nofun, rfl, fun _ hu => hu⟩
  · refine ⟨nofun, ?_, fun u _ => ?_⟩
    · show Except.ok (d, (d.branchNext i b).1) = _
      rw [hb]
    · show (d.branchNext i b).2 = _
      rw [hb]

/-- The spots that starting a command tells: none if it marks the start or the end of a branch. -/
theorem told_executed (hc : d.command? i = some c) (name : String) :
    ([Note.event (.commandExecuted ⟨d.name, i⟩ name)].filterMap Note.event?).filterMap d.told? =
      (if c.role = .else ∨ c.role = .endif then [] else [i]).map (Spot.mk d.name) := by
  have hmarks : d.marks ⟨d.name, i⟩ = decide (c.role = .else ∨ c.role = .endif) := by
    unfold Document.marks
    simp [hc]
  simp only [List.filterMap_cons, List.filterMap_nil, Note.event?, Document.told?, hmarks]
  by_cases hm : c.role = .else ∨ c.role = .endif <;> simp [hm]

/-- Starting and completing a command. -/
theorem walks_visit (hc : d.command? i = some c) (hr : w.registry.get? c.name = some h)
    (he : ∀ s, d.entry i arrived (t.on s) = .run) {flow : Flow}
    (ho : ∀ s, ∃ done : Completion,
      h.outcome c ⟨d.name, i⟩ (t.on s) = (done, t'.on s) ∧ done.flow = flow)
    (hf : (flow = .advance ∧ j = i + 1 ∧ arrived' = false) ∨
      ∃ b, flow = .branch b ∧ d.branchNext i b = (j, arrived'))
    (ht : t'.trace = t.trace ++ if c.role = .else ∨ c.role = .endif then [] else [i]) :
    Walks w d i arrived t j arrived' t' := by
  intro n s
  obtain ⟨hi, -⟩ := Array.getElem?_eq_some_iff.1 hc
  obtain ⟨done, hdone, rfl⟩ := ho s
  obtain ⟨hstop, hfollow, harrives⟩ := follow_inside (w := w) hf
  obtain ⟨u, hu⟩ : ∃ u, u = ((before d i arrived n (t.on s)).start d i c).2 := ⟨_, rfl⟩
  have hstart : (before d i arrived n (t.on s)).next w =
      some ([.event (.commandExecuted ⟨d.name, i⟩ c.name)], u) := by
    rw [hu]
    exact next_start rfl (if_pos hi) hc rfl (he s) hr
  have hcomplete : u.next w = some (u.complete w d i c h) :=
    next_complete (by rw [hu]; rfl) (by rw [hu]; exact if_pos hi) hc (by rw [hu]; rfl) hr
  have hresult : u.complete w d i c h =
      (.after (t'.on s) :: aftermath w.registry done d j (t'.on s),
        before d j arrived' (n + 1) (t'.on s)) := by
    have houtcome : h.outcome c ⟨d.name, i⟩ u.services = (done, t'.on s) := by
      rw [hu]
      exact hdone
    unfold complete finish
    rw [houtcome]
    simp only [hfollow, harrives u (by rw [hu]; rfl)]
    rw [hu]
    rfl
  rw [hresult] at hcomplete
  have hquiet : executed (.after (t'.on s) :: aftermath w.registry done d j (t'.on s)) = [] :=
    executed_aftermath w.registry done d j (t'.on s)
  refine ⟨_, n + 1, (Leads.one hstart).trans (.one hcomplete), ?_, ?_⟩
  · refine inside_append ⟨by simp, fun s name hs => ?_⟩ (inside_of_executed hquiet fun h => ?_)
    · simp only [List.mem_singleton, Note.event.injEq, Event.commandExecuted.injEq] at hs
      obtain ⟨rfl, rfl⟩ := hs
      exact ⟨rfl, c, hc, rfl⟩
    · rcases List.mem_cons.1 h with h | h
      · cases h
      · exact not_halted_aftermath hstop w.registry d j (t'.on s) h
  · rw [List.filterMap_append, List.filterMap_append, told_of_executed hquiet, told_executed hc,
      List.append_nil, ht, List.map_append]

/-- A leaf, which is left out unless its guard holds. -/
theorem walks_leaf (hw : w.registry.Sound) (hc : d.command? i = some c)
    (hk : Builtin.Tells w.registry c) (hrole : c.role = .none) (t : Telling) :
    Walks w d i false t (i + 1) false (t.leaf i c) := by
  have hentry : ∀ s, d.entry i false (t.on s) =
      if c.passes t.vars then .run else .skip (i + 1) := by
    intro s
    rw [← Builtin.isWanted_on c t s]
    unfold Document.entry
    rw [hc]
    dsimp only
    rw [hrole]
  unfold Telling.leaf
  by_cases hp : c.passes t.vars = true
  · simp only [hp, if_true] at hentry ⊢
    obtain ⟨k, hr, hkind⟩ := Builtin.handler_of_tells hw hk
    rw [hrole] at hkind
    have htrace : ∀ u : Telling, u.trace = t.trace ++ [i] →
        u.trace = t.trace ++ if c.role = .else ∨ c.role = .endif then [] else [i] := by
      intro u hu
      rw [hu, hrole]
      rfl
    rcases hkind with ⟨hname, rfl⟩ | ⟨hname, rfl⟩
    · rw [if_pos hname]
      refine walks_visit hc hr hentry (fun s => ?_) (.inl ⟨rfl, rfl, rfl⟩) (htrace _ ?_)
      · exact Builtin.outcome_set (t := t.visit i) hrole
      · unfold Telling.set
        split
        · split <;> rfl
        · rfl
    · rw [if_neg (by rw [hname]; decide)]
      refine walks_visit hc hr hentry (fun s => ?_) (.inl ⟨rfl, rfl, rfl⟩) (htrace _ ?_)
      · exact Builtin.outcome_print (t := t.visit i) hrole
      · unfold Telling.print
        split <;> rfl
  · rw [if_neg hp]
    refine walks_pass hc fun s => ?_
    rw [hentry s, if_neg hp]

/-- The condition of a branch leads into the branch or to what follows it. -/
theorem walks_condition (arrived : Bool) (hw : w.registry.Sound) (hc : d.command? i = some c)
    (hk : Builtin.Tells w.registry c)
    (hrole : c.role = .if ∨ c.role = .elseif ∧ arrived = true) {link : BlockLink}
    (hl : d.block? i = some link) (t : Telling) :
    Walks w d i arrived t (if c.holds t.vars then i + 1 else link.next)
      (!c.holds t.vars) (t.visit i) := by
  obtain ⟨k, hr, hkind⟩ := Builtin.handler_of_tells hw hk
  have hbegin : k.begin c = .ok .branch := by
    rcases hrole with hrole | ⟨hrole, -⟩ <;> rw [hrole] at hkind <;> rw [hkind] <;> rfl
  refine walks_visit hc hr (fun s => ?_)
    (fun s => Builtin.outcome_branch (t := t.visit i) (hrole.imp_right And.left) hbegin)
    (.inr ⟨_, rfl, ?_⟩) ?_
  · unfold Document.entry
    rw [hc]
    dsimp only
    rcases hrole with hrole | ⟨hrole, ha⟩
    · rw [hrole]
    · rw [hrole, ha]
      rfl
  · unfold Document.branchNext
    rw [hl]
    show _ = (if c.holds t.vars then i + 1 else link.next, !c.holds t.vars)
    show (if c.holds t.vars = true then _ else _) = _
    cases c.holds t.vars <;> rfl
  · rcases hrole with hrole | ⟨hrole, -⟩ <;> rw [hrole] <;> rfl

/-- The end of a block is passed in whatever way it is reached. -/
theorem walks_endif (hw : w.registry.Sound) (hc : d.command? i = some c)
    (hk : Builtin.Tells w.registry c) (hrole : c.role = .endif) (arrived : Bool) (t : Telling) :
    Walks w d i arrived t (i + 1) false t := by
  obtain ⟨k, hr, hkind⟩ := Builtin.handler_of_tells hw hk
  rw [hrole] at hkind
  subst hkind
  refine walks_visit hc hr (fun s => ?_) (fun s => ⟨{}, rfl, rfl⟩) (.inl ⟨rfl, rfl, rfl⟩) ?_
  · unfold Document.entry
    rw [hc]
    dsimp only
    rw [hrole]
  · rw [hrole]
    exact (List.append_nil _).symm

theorem walks_else (hw : w.registry.Sound) (hc : d.command? i = some c)
    (hk : Builtin.Tells w.registry c) (hrole : c.role = .else) (t : Telling) :
    Walks w d i true t (i + 1) false t := by
  obtain ⟨k, hr, hkind⟩ := Builtin.handler_of_tells hw hk
  rw [hrole] at hkind
  subst hkind
  refine walks_visit hc hr (fun s => ?_) (fun s => ⟨{ flow := .branch true }, rfl, rfl⟩)
    (.inr ⟨true, rfl, rfl⟩) ?_
  · unfold Document.entry
    rw [hc]
    dsimp only
    rw [hrole]
    rfl
  · rw [hrole]
    exact (List.append_nil _).symm

/-- A further branch that is reached out of the one before it leads to the end of its block. -/
theorem walks_past (hc : d.command? i = some c) (hrole : c.role = .elseif ∨ c.role = .else)
    {link : BlockLink} (hl : d.block? i = some link) (t : Telling) :
    Walks w d i false t link.last false t := by
  refine walks_pass hc fun s => ?_
  unfold Document.entry
  rw [hc]
  dsimp only
  rcases hrole with hrole | hrole <;> rw [hrole, hl] <;> rfl

end Standing

section

variable {w : Shelf} {d : Document}

/-- The end of the block that some branches belong to. -/
theorem Branches.walks_end (hw : w.registry.Sound) (b : Branches) {i : Nat}
    (hc : d.Has i b.commands) (hk : ∀ c ∈ b.commands, Builtin.Tells w.registry c)
    (arrived : Bool) (t : Telling) :
    Standing.Walks w d (b.endAt i) arrived t (i + b.size) false t := by
  cases b with
  | close c hrole => exact Standing.walks_endif hw hc.1 (hk c List.mem_cons_self) hrole arrived t
  | last c hrole body close hclose =>
    have hend := (Document.has_append.1 hc.2).2.1
    have := Standing.walks_endif hw hend
      (hk close (List.mem_cons_of_mem _ (List.mem_append_right _ List.mem_cons_self))) hclose
      arrived t
    rw [Branches.size_last, show i + (body.size + 2) = i + 1 + body.size + 1 by omega]
    exact this
  | also c hrole body more =>
    have hmore := (Document.has_append.1 hc.2).2
    have := more.walks_end hw hmore (fun c h => hk c (List.mem_cons_of_mem _
      (List.mem_append_right _ h))) arrived t
    rw [Branches.size_also, show i + (body.size + more.size + 1) =
      i + 1 + body.size + more.size by omega]
    exact this

mutual

/-- Playing an outline tells what it tells. -/
theorem Outline.walks (hw : w.registry.Sound) (o : Outline) {i : Nat}
    (hc : d.Has i o.commands) (hk : ∀ c ∈ o.commands, Builtin.Tells w.registry c)
    (hl : ∀ e ∈ o.links i, d.block? e.1 = some e.2) (t : Telling) :
    Standing.Walks w d i false t (i + o.size) false (o.tell i t) := by
  cases o with
  | nil => exact Standing.Walks.refl w d i false t
  | leaf c hrole rest =>
    have hleaf := Standing.walks_leaf hw hc.1 (hk c List.mem_cons_self) hrole t
    have hrest := rest.walks hw hc.2 (fun c h => hk c (List.mem_cons_of_mem _ h)) hl (t.leaf i c)
    rw [Outline.size_leaf, Outline.tell, show i + (rest.size + 1) = i + 1 + rest.size by omega]
    exact hleaf.trans hrest
  | block c hrole body more rest =>
    obtain ⟨hbody, hmore⟩ := Document.has_append.1 hc.2
    obtain ⟨hmore, hrest⟩ := Document.has_append.1 hmore
    have hkbody := fun c h => hk c (List.mem_cons_of_mem _ (List.mem_append_left _ h))
    have hkmore := fun c h => hk c (List.mem_cons_of_mem _
      (List.mem_append_right _ (List.mem_append_left _ h)))
    have hkrest := fun c h => hk c (List.mem_cons_of_mem _
      (List.mem_append_right _ (List.mem_append_right _ h)))
    have hlbody := fun e h => hl e (List.mem_cons_of_mem _ (List.mem_append_left _ h))
    have hlmore := fun e h => hl e (List.mem_cons_of_mem _
      (List.mem_append_right _ (List.mem_append_left _ h)))
    have hlrest := fun e h => hl e (List.mem_cons_of_mem _
      (List.mem_append_right _ (List.mem_append_right _ h)))
    have hcond := Standing.walks_condition false hw hc.1 (hk c List.mem_cons_self)
      (.inl hrole) (hl _ List.mem_cons_self) t
    have hafter := rest.walks hw hrest hkrest hlrest
    rw [Outline.size_block, Outline.tell, show i + (body.size + more.size + rest.size + 1) =
      i + 1 + body.size + more.size + rest.size by omega]
    cases hh : c.holds t.vars with
    | true =>
      simp only [hh, if_true, Bool.not_true] at hcond ⊢
      refine hcond.trans ((body.walks hw hbody hkbody hlbody _).trans ?_)
      exact (more.walks hw hmore hkmore hlmore _).2.trans (hafter _)
    | false =>
      simp only [hh, Bool.false_eq_true, if_false, Bool.not_false] at hcond ⊢
      exact hcond.trans ((more.walks hw hmore hkmore hlmore _).1.trans (hafter _))

/-- Further branches, when no branch before them was taken and when one was. -/
theorem Branches.walks (hw : w.registry.Sound) (b : Branches) {i : Nat}
    (hc : d.Has i b.commands) (hk : ∀ c ∈ b.commands, Builtin.Tells w.registry c)
    (hl : ∀ e ∈ b.links i, d.block? e.1 = some e.2) (t : Telling) :
    Standing.Walks w d i true t (i + b.size) false (b.tell i t) ∧
      Standing.Walks w d i false t (i + b.size) false t := by
  cases b with
  | close c hrole =>
    have hend := Standing.walks_endif hw hc.1 (hk c List.mem_cons_self) hrole
    exact ⟨hend true t, hend false t⟩
  | last c hrole body close hclose =>
    have hend := (Branches.last c hrole body close hclose).walks_end hw hc hk false
    have hkbody := fun c h => hk c (List.mem_cons_of_mem _ (List.mem_append_left _ h))
    have hlbody := fun e h => hl e (List.mem_cons_of_mem _ h)
    have hbody := body.walks hw (Document.has_append.1 hc.2).1 hkbody hlbody t
    constructor
    · exact (Standing.walks_else hw hc.1 (hk c List.mem_cons_self) hrole t).trans
        (hbody.trans (hend _))
    · exact (Standing.walks_past hc.1 (.inr hrole) (hl _ List.mem_cons_self) t).trans (hend t)
  | also c hrole body more =>
    obtain ⟨hbody, hmore⟩ := Document.has_append.1 hc.2
    have hkbody := fun c h => hk c (List.mem_cons_of_mem _ (List.mem_append_left _ h))
    have hkmore := fun c h => hk c (List.mem_cons_of_mem _ (List.mem_append_right _ h))
    have hlbody := fun e h => hl e (List.mem_cons_of_mem _ (List.mem_append_left _ h))
    have hlmore := fun e h => hl e (List.mem_cons_of_mem _ (List.mem_append_right _ h))
    have hend := (Branches.also c hrole body more).walks_end hw hc hk false t
    have hcond := Standing.walks_condition true hw hc.1 (hk c List.mem_cons_self)
      (.inr ⟨hrole, rfl⟩) (hl _ List.mem_cons_self) t
    have hsize : i + (Branches.also c hrole body more).size = i + 1 + body.size + more.size := by
      rw [Branches.size_also]
      omega
    refine ⟨?_, (Standing.walks_past hc.1 (.inl hrole) (hl _ List.mem_cons_self) t).trans hend⟩
    rw [hsize, Branches.tell]
    cases hh : c.holds t.vars with
    | true =>
      simp only [hh, if_true, Bool.not_true] at hcond ⊢
      refine hcond.trans ((body.walks hw hbody hkbody hlbody _).trans ?_)
      exact (more.walks hw hmore hkmore hlmore _).2
    | false =>
      simp only [hh, Bool.false_eq_true, if_false, Bool.not_false] at hcond ⊢
      exact hcond.trans (more.walks hw hmore hkmore hlmore _).1

end

end

end Playhead
