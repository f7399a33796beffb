import Playhead.Proofs.Standing.Sound

/-!
A tick moves playback along its standings, one step after the other, until the time or the bound of
the tick is used up. It leaves them only where a command of the host is started.
-/

namespace Playhead

namespace Playback

/-- What starting the next command completed. -/
def begunAfters (r : Playback × Except JumpError Begin) : List ServiceSet :=
  match r.2 with
  | .ok .started | .ok .idle => []
  | _ => [r.1.services]

/-- What a step of the command in flight completed. -/
def steppedAfters (r : Playback × Except JumpError Bool) : List ServiceSet :=
  match r.2 with
  | .ok false => []
  | _ => [r.1.services]

/-- The services after each command that a run completes. -/
def runAfters (env : Env) : Nat → Nanoseconds → Playback → List ServiceSet
  | 0, _, _ => []
  | n + 1, delta, p =>
    if !p.player.isRunning || p.cursor.waiting then []
    else
      let r := p.beginNext env
      begunAfters r ++
        match r with
        | (p, .ok .completed) => runAfters env n delta p
        | (p, .ok .started) =>
          match p.player.active with
          | none => []
          | some a =>
            let r := p.stepActive env a delta
            steppedAfters r ++
              match r with
              | (p, .ok true) => runAfters env n 0 p
              | _ => []
        | _ => []

def advanceAfters (env : Env) (p : Playback) (delta : Nanoseconds) : List ServiceSet :=
  match p.player.active with
  | none => runAfters env env.config.maxCommands delta p
  | some a =>
    if p.isStray a then
      runAfters env env.config.maxCommands delta
        { p with player := { p.player with active := none } }
    else
      let r := p.stepActive env a delta
      steppedAfters r ++
        match r with
        | (p, .ok true) => runAfters env env.config.maxCommands 0 p
        | _ => []

/-- The services after each command that a tick completes. -/
def tickAfters (env : Env) (p : Playback) (delta : Nanoseconds) : List ServiceSet :=
  if !p.player.isRunning then []
  else if p.scopes.isCancelled p.player.scope then []
  else if p.cursor.waiting then
    match p.leaveWait env delta with
    | (_, false) => []
    | (p, true) => p.advanceAfters env delta
  else p.advanceAfters env delta

/-- Playback has gone from one standing to another, noting all that the steps note. Every snapshot
is an old one or was taken on the way. -/
structure Wanders (env : Env) (p : Playback) (l : List Note) (q : Playback)
    (g : List ServiceSet) : Prop where
  roams : p.standing.Roams (p.shelf env) l q.standing
  plot : q.plot = p.plot ++ l.filterMap Note.event?
  afters : g.map ServiceSet.story = l.filterMap Note.after?
  shelf : q.shelf env = p.shelf env
  scopes : q.scopes = p.scopes
  scope : q.player.scope = p.player.scope
  halted : q.player.halted = true → p.player.halted = true ∨ .event (.stopped .command) ∈ l
  stack : ∀ y ∈ q.manager.stack.snapshots,
    (∃ x ∈ p.manager.stack.snapshots, x.Alike y) ∨
      ∃ l₁ t l₂, l = l₁ ++ l₂ ∧ p.standing.Roams (p.shelf env) l₁ t ∧
        t.Roams (p.shelf env) l₂ q.standing ∧ t.Captured y ∧
        p.standing.Lands (p.shelf env) l₁ t ∧
        (Standing.Starts l₁ (· ∈ Builtin.names) →
          (∀ name, p.standing.Current name → name ∈ Builtin.names) → t.arrived = false)

/-- Playback of built-in commands only has gone along its standings. -/
structure Follows (env : Env) (p : Playback) (l : List Note) (q : Playback)
    (g : List ServiceSet) : Prop extends Wanders env p l q g where
  names : Standing.Starts l (· ∈ Builtin.names)
  builtin : ∀ name, p.standing.Current name → name ∈ Builtin.names

/-- Playback has left its standings with a command of the host. -/
def Strays (env : Env) (p q : Playback) (g : List ServiceSet) : Prop :=
  ∃ l t spot name, p.standing.Leads (p.shelf env)
      (l ++ [.event (.commandExecuted spot name)]) t ∧ name ∉ Builtin.names ∧
    p.plot ++ (l ++ [.event (.commandExecuted spot name)]).filterMap Note.event? <+: q.plot ∧
    l.filterMap Note.after? <+: g.map ServiceSet.story

/-- Playback has gone along its standings or has left them. In the first case no command is in
flight if `idle` holds. -/
def Tracked (env : Env) (p q : Playback) (g : List ServiceSet) (idle : Prop) : Prop :=
  (∃ l, Follows env p l q g ∧ Sound env q ∧ (idle → q.player.active = none)) ∨ Strays env p q g

variable {env : Env} {p q r : Playback} {l m : List Note} {g g' : List ServiceSet}

theorem Wanders.of_stays (h : Stays p q) : Wanders env p [] q [] where
  roams := by
    rw [h.standing]
    exact .refl _
  plot := h.plot.trans (List.append_nil _).symm
  afters := rfl
  shelf := shelf_of_backdrop env h.backdrop
  scopes := congrArg Backdrop.scopes h.backdrop
  scope := congrArg Backdrop.scope h.backdrop
  halted hq := .inl (h.halted hq)
  stack y hy := .inl ⟨y, h.manager ▸ hy, .refl y⟩

theorem Wanders.trans (h : Wanders env p l q g) (h' : Wanders env q m r g') :
    Wanders env p (l ++ m) r (g ++ g') where
  roams := h.roams.trans (h.shelf ▸ h'.roams)
  plot := by rw [h'.plot, h.plot, List.filterMap_append, List.append_assoc]
  afters := by rw [List.map_append, List.filterMap_append, h.afters, h'.afters]
  shelf := h'.shelf.trans h.shelf
  scopes := h'.scopes.trans h.scopes
  scope := h'.scope.trans h.scope
  halted hr := by
    rcases h'.halted hr with hq | hm
    · exact (h.halted hq).imp_right (List.mem_append_left m)
    · exact .inr (List.mem_append_right l hm)
  stack y hy := by
    rcases h'.stack y hy with ⟨x, hx, hxy⟩ | ⟨l₁, t, l₂, rfl, h₁, h₂, ht, hl, ha⟩
    · rcases h.stack x hx with ⟨z, hz, hzx⟩ | ⟨l₁, t, l₂, rfl, h₁, h₂, ht, hl, ha⟩
      · exact .inl ⟨z, hz, hzx.trans hxy⟩
      · refine .inr ⟨l₁, t, l₂ ++ m, List.append_assoc _ _ _, h₁, ?_, ht.alike hxy, hl, ha⟩
        exact h₂.trans (h.shelf ▸ h'.roams)
    · rw [h.shelf] at h₁ h₂ hl
      refine .inr ⟨l ++ l₁, t, l₂, (List.append_assoc _ _ _).symm, h.roams.trans h₁, h₂, ht,
        hl.after h.roams, fun hs hc => ?_⟩
      obtain ⟨hs₁, hs₂⟩ := Standing.starts_append.1 hs
      exact ha hs₂ (h.roams.leads hs₁ hc).2

theorem Follows.leads (h : Follows env p l q g) :
    p.standing.Leads (p.shelf env) l q.standing :=
  (h.roams.leads h.names h.builtin).1

/-- Every snapshot is an old one or was taken on the way. -/
theorem Follows.retained (h : Follows env p l q g) {y : Snapshot}
    (hy : y ∈ q.manager.stack.snapshots) :
    (∃ x ∈ p.manager.stack.snapshots, x.Alike y) ∨
      ∃ l₁ t l₂, l = l₁ ++ l₂ ∧ p.standing.Leads (p.shelf env) l₁ t ∧
        t.Leads (p.shelf env) l₂ q.standing ∧ t.Captured y ∧ t.arrived = false ∧
        p.standing.Lands (p.shelf env) l₁ t := by
  rcases h.stack y hy with hold | ⟨l₁, t, l₂, rfl, h₁, h₂, ht, hlands, ha⟩
  · exact .inl hold
  · obtain ⟨hl₁, hl₂⟩ := Standing.starts_append.1 h.names
    obtain ⟨hleads, hct⟩ := h₁.leads hl₁ h.builtin
    exact .inr ⟨l₁, t, l₂, rfl, hleads, (h₂.leads hl₂ hct).1, ht, ha hl₁ h.builtin, hlands⟩

/-- Playback of built-in commands goes along its standings until a command of the host is
started. -/
theorem Wanders.tracked {idle : Prop} (h : Wanders env p l q g) (hq : Live env q)
    (hc : ∀ name, p.standing.Current name → name ∈ Builtin.names)
    (ha : idle → q.player.active = none) : Tracked env p q g idle := by
  by_cases hl : Standing.Starts l (· ∈ Builtin.names)
  · exact .inl ⟨l, ⟨h, hl, hc⟩, ⟨hq, (h.roams.leads hl hc).2⟩, ha⟩
  · obtain ⟨l₁, l₂, u, spot, name, rfl, hn, hu⟩ := h.roams.strays hl hc
    refine .inr ⟨l₁, u, spot, name, hu, hn, ?_, ?_⟩
    · have hsplit : (l₁ ++ Note.event (.commandExecuted spot name) :: l₂).filterMap Note.event? =
          (l₁ ++ [Note.event (.commandExecuted spot name)]).filterMap Note.event? ++
            l₂.filterMap Note.event? := by
        rw [← List.filterMap_append, List.append_assoc]
        rfl
      rw [h.plot, hsplit, ← List.append_assoc]
      exact List.prefix_append _ _
    · rw [h.afters, List.filterMap_append]
      exact List.prefix_append _ _

theorem Follows.of_stays (hp : Sound env p) (h : Stays p q) : Follows env p [] q [] :=
  ⟨.of_stays h, fun _ _ hn => absurd hn List.not_mem_nil, hp.builtin⟩

theorem Follows.trans (h : Follows env p l q g) (h' : Follows env q m r g') :
    Follows env p (l ++ m) r (g ++ g') :=
  ⟨h.toWanders.trans h'.toWanders, Standing.starts_append.2 ⟨h.names, h'.names⟩, h.builtin⟩

theorem Strays.grow (h : Strays env p q g) (hq : Grows q r) (g' : List ServiceSet) :
    Strays env p r (g ++ g') := by
  obtain ⟨l, t, spot, name, hl, hn, hplot, hg⟩ := h
  refine ⟨l, t, spot, name, hl, hn, hplot.trans hq, hg.trans ?_⟩
  rw [List.map_append]
  exact List.prefix_append _ _

theorem Follows.strays (h : Follows env p l q g) (h' : Strays env q r g') :
    Strays env p r (g ++ g') := by
  obtain ⟨m, t, spot, name, hm, hn, hplot, hg⟩ := h'
  rw [h.shelf] at hm
  refine ⟨l ++ m, t, spot, name, ?_, hn, ?_, ?_⟩
  · rw [List.append_assoc]
    exact h.leads.trans hm
  · rw [h.plot, List.append_assoc, ← List.filterMap_append] at hplot
    rwa [List.append_assoc]
  · rw [List.map_append, List.filterMap_append, h.afters]
    exact (List.prefix_append_right_inj _).2 hg

end Playback

end Playhead
