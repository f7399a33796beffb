import Playhead.Proofs.Engine.Restore
import Playhead.Proofs.Engine.Rounds
import Playhead.Proofs.Standing.Prompt

/-!
Playing on after a rollback goes the way that was gone after the snapshot was taken.
-/

namespace Playhead

/-- One of two lists goes on from the end of the other. -/
def Along {α : Type} (l m : List α) : Prop :=
  l <+: m ∨ m <+: l

namespace Along

variable {α β : Type} {l m : List α}

theorem filterMap (f : α → Option β) (h : Along l m) : Along (l.filterMap f) (m.filterMap f) :=
  h.imp (·.filterMap f) (·.filterMap f)

theorem append_left (k : List α) (h : Along l m) : Along (k ++ l) (k ++ m) :=
  h.imp (List.prefix_append_right_inj k).2 (List.prefix_append_right_inj k).2

end Along

namespace Builtin

end Builtin

/-- The records of the game after each command that completes on a way. -/
def Standing.games (l : List Note) : List (Except ServiceError StateMap) :=
  (l.filterMap Note.after?).map (StateMap.collect · .game)

theorem Standing.games_append (l m : List Note) : games (l ++ m) = games l ++ games m := by
  unfold games
  rw [List.filterMap_append, List.map_append]

namespace Engine

open Standing (executed games)

/-- The commands that are started while an engine is driven, and where they stand. -/
def startsOf (e : Engine) (l : List Input) : List (Spot × String) :=
  (e.plotOf l).filterMap Event.executed?

/-- The records of the game after each command that completes while an engine is driven. -/
def gamesOf (e : Engine) (l : List Input) : List (Except ServiceError StateMap) :=
  (e.afters l).map (StateMap.collect · .game)

/-- A script that playback comes to while an engine is driven. -/
def Visits (e : Engine) (l : List Input) (d : Document) : Prop :=
  ∃ m t, e.playback.standing.Leads (e.playback.shelf e.env) m t ∧
    m.filterMap Note.event? <+: e.plotOf l ∧ t.document = some d

/-- Driving starts all commands of a way and leaves the same games behind. -/
def Covers (e : Engine) (l : List Input) (r : List Note) : Prop :=
  executed r <+: e.startsOf l ∧ games r <+: e.gamesOf l

variable {e : Engine} {l : List Input} {m r : List Note} {v : Standing} {g : List ServiceSet}

theorem games_of_story {g : List ServiceSet} {m : List Note}
    (h : g.map ServiceSet.story = m.filterMap Note.after?) :
    g.map (StateMap.collect · .game) = games m := by
  unfold games
  rw [← h, List.map_map]
  exact List.map_congr_left fun s _ => (StateMap.collect_story s).symm

theorem startsOf_eq (h : Playback.Follows e.env e.playback m (e.takeAll l).playback g) :
    e.startsOf l = executed m :=
  congrArg (List.filterMap Event.executed?) (plotOf_eq h)

theorem gamesOf_eq (h : Playback.Follows e.env e.playback m (e.takeAll l).playback (e.afters l)) :
    e.gamesOf l = games m :=
  games_of_story h.afters

theorem prefix_executed (h : m <+: r) : executed m <+: executed r := by
  obtain ⟨x, rfl⟩ := h
  rw [Standing.executed_append]
  exact List.prefix_append _ _

theorem prefix_games (h : m <+: r) : games m <+: games r := by
  obtain ⟨x, rfl⟩ := h
  rw [Standing.games_append]
  exact List.prefix_append _ _

/-- A way of built-in commands ends before a command of the host that is started further on. -/
theorem prefix_of_strays {w : Shelf} {s u : Standing} {spot : Spot} {name : String}
    (hm : s.Leads w (m ++ [.event (.commandExecuted spot name)]) u) (hn : name ∉ Builtin.names)
    (hr : s.Leads w r v) (hb : Standing.Starts r (· ∈ Builtin.names)) : r <+: m := by
  rcases hm.comparable hr with ⟨x, -, hx⟩ | ⟨x, -, hx⟩
  · exact absurd (hb spot name (by rw [hx]; simp)) hn
  · rcases List.eq_nil_or_concat x with rfl | ⟨y, n, rfl⟩
    · rw [List.append_nil] at hx
      exact absurd (hb spot name (by rw [← hx]; simp)) hn
    · rw [List.concat_eq_append, ← List.append_assoc] at hx
      exact ⟨y, (List.append_inj_left' hx rfl).symm⟩

/-- Driving that has strayed from a way of built-in commands has gone all of it before. -/
theorem covers_of_strays
    (hs : Playback.Strays e.env e.playback (e.takeAll l).playback (e.afters l))
    (hr : e.playback.standing.Leads (e.playback.shelf e.env) r v)
    (hb : Standing.Starts r (· ∈ Builtin.names)) :
    r.filterMap Note.event? <+: e.plotOf l ∧ games r <+: e.gamesOf l := by
  obtain ⟨m, t, spot, name, hm, hn, hplot, hg⟩ := hs
  have hinit := prefix_of_strays hm hn hr hb
  have hgames : games m <+: e.gamesOf l := by
    obtain ⟨x, hx⟩ := hg
    have hmap := congrArg (List.map (StateMap.collect · .game)) hx
    rw [List.map_append, List.map_map] at hmap
    refine ⟨x.map (StateMap.collect · .game), hmap.trans ?_⟩
    exact List.map_congr_left fun s _ => StateMap.collect_story s
  refine ⟨?_, (prefix_games hinit).trans hgames⟩
  obtain ⟨x, hx⟩ := hplot
  unfold plotOf
  rw [← hx, List.append_assoc, List.drop_left, List.filterMap_append]
  exact (hinit.filterMap _).trans ((List.prefix_append _ _).trans (List.prefix_append _ _))

/-- What is reported while driving goes along a way of built-in commands, or all of it and
further, and so do the games. -/
theorem goes_along (he : e.Sound) (hr : e.playback.standing.Leads (e.playback.shelf e.env) r v)
    (hb : Standing.Starts r (· ∈ Builtin.names)) (hl : ∀ i ∈ l, ¬i.IsSelect) :
    Along (e.plotOf l) (r.filterMap Note.event?) ∧ Along (e.gamesOf l) (games r) := by
  rcases takeAll_gets he hl with hs | ⟨m, hm, -, -⟩
  · obtain ⟨hplot, hgames⟩ := covers_of_strays hs hr hb
    exact ⟨.inr hplot, .inr hgames⟩
  · rw [plotOf_eq hm, gamesOf_eq hm]
    rcases hm.leads.comparable hr with ⟨x, -, rfl⟩ | ⟨x, -, rfl⟩
    · exact ⟨.inl ((List.prefix_append _ _).filterMap _),
        .inl (prefix_games (List.prefix_append _ _))⟩
    · exact ⟨.inr ((List.prefix_append _ _).filterMap _),
        .inr (prefix_games (List.prefix_append _ _))⟩

/-- Driving goes along a way of built-in commands, or all of it and further. -/
theorem agrees (he : e.Sound) (hr : e.playback.standing.Leads (e.playback.shelf e.env) r v)
    (hb : Standing.Starts r (· ∈ Builtin.names)) (hl : ∀ i ∈ l, ¬i.IsSelect) :
    Along (e.startsOf l) (executed r) ∧ Along (e.gamesOf l) (games r) :=
  (goes_along he hr hb hl).imp_left (·.filterMap Event.executed?)

/-- Driving that gets to the end of a way covers it. -/
theorem Gets.covers (h : e.Gets l fun m _ _ => r <+: m)
    (hr : e.playback.standing.Leads (e.playback.shelf e.env) r v)
    (hb : Standing.Starts r (· ∈ Builtin.names)) : e.Covers l r := by
  rcases h with hs | ⟨m, hm, -, hinit⟩
  · exact (covers_of_strays hs hr hb).imp_left (·.filterMap Event.executed?)
  · refine ⟨?_, ?_⟩
    · rw [startsOf_eq hm]
      exact prefix_executed hinit
    · rw [gamesOf_eq hm]
      exact prefix_games hinit

/-- Rounds come to the end of a way on which no option is registered and nothing halts. -/
theorem rounds_cover (n : Nat) (delta : Nat → Nanoseconds) (hd : ∀ i, 0 < delta i)
    (he : e.Sound) (hready : e.Ready)
    (hr : e.playback.standing.Leads (e.playback.shelf e.env) r v)
    (hb : Standing.Starts r Builtin.Steady)
    (hc : ∀ name, e.playback.standing.Current name → Builtin.Steady name)
    (hn : (r.filterMap Note.after?).length < n) :
    ∃ k, e.Gets (rounds delta k) fun m _ _ => r <+: m := by
  induction n generalizing e delta r with
  | zero => cases hn
  | succ n ih =>
    by_cases ho : e.playback.Over
    · obtain ⟨rfl, -⟩ := hr.eq_of_over (Playback.next_of_over ho)
      exact ⟨0, .inr ⟨[], .of_stays he.playback (.refl _), he, List.nil_prefix⟩⟩
    obtain ⟨k, hk⟩ := rounds_advance hd he hready ho
    rcases hk with hs | ⟨m, hm, hs, hdone⟩
    · exact ⟨k, .inl hs⟩
    rcases hm.leads.comparable hr with ⟨x, hx, rfl⟩ | ⟨x, -, rfl⟩
    swap
    · exact ⟨k, .inr ⟨_, hm, hs, List.prefix_append _ _⟩⟩
    obtain ⟨hbm, hbx⟩ := Standing.starts_append.1 hb
    have hcur := (hm.leads.keeps (m := []) (P := Builtin.Steady) (I := fun _ _ => True)
      (fun _ _ _ _ _ _ _ => trivial) hbm hc trivial).2
    rcases hdone with hg | ho'
    · have hlen : (m.filterMap Note.after?).length ≠ 0 := by
        rw [← hm.afters, List.length_map]
        exact fun h => hg (List.length_eq_zero_iff.1 h)
      rw [List.filterMap_append, List.length_append] at hn
      have hx' : (e.takeAll (rounds delta k)).playback.standing.Leads
          ((e.takeAll (rounds delta k)).playback.shelf (e.takeAll (rounds delta k)).env) x v := by
        rw [takeAll_env he fun i hi => (isPlain_of_mem_rounds hi).not_isSelect, hm.shelf]
        exact hx
      obtain ⟨j, hj⟩ := ih (fun i => delta (k + i)) (fun i => hd (k + i)) hs
        (hready.steady he hm hbm hc rfl) hx' hbx hcur (by omega)
      refine ⟨k + j, ?_⟩
      rw [rounds_add]
      refine Gets.trans he (fun i hi => (isPlain_of_mem_rounds hi).not_isSelect)
        (fun i hi => (isPlain_of_mem_rounds hi).not_isSelect)
        (P := fun m' _ _ => m' = m) (.inr ⟨m, hm, hs, rfl⟩) fun m' _ _ hm' => ?_
      rw [hm']
      rcases hj with hj | ⟨y, hy, hys, hinit⟩
      · exact .inl hj
      · exact .inr ⟨y, hy, hys, (List.prefix_append_right_inj m).2 hinit⟩
    · obtain ⟨rfl, -⟩ := hx.eq_of_over (Playback.next_of_over ho')
      exact ⟨k, .inr ⟨m, hm, hs, by simp⟩⟩

/-- A run from the start of a script, with the standing at which a snapshot was taken that is still
retained. -/
structure Kept (e : Engine) (run : List Input) (x : Snapshot) (l₁ : List Note) (t : Standing)
    (l₂ : List Note) : Prop where
  follows : Playback.Follows e.env e.playback (l₁ ++ l₂) (e.takeAll run).playback (e.afters run)
  sound : (e.takeAll run).Sound
  before : e.playback.standing.Leads (e.playback.shelf e.env) l₁ t
  after : t.Leads (e.playback.shelf e.env) l₂ (e.takeAll run).playback.standing
  captured : t.Captured x
  fresh : t.arrived = false
  lands : e.playback.standing.Lands (e.playback.shelf e.env) l₁ t

namespace Kept

variable {e₁ : Engine} {d : Document} {index : Nat} {run : List Input} {x : Snapshot}
  {l₁ l₂ : List Note} {t : Standing}

/-- As many commands were started and completed before a snapshot was taken as it says. -/
theorem played (h : Kept e₁ run x l₁ t l₂) (hb : Begun e d index e₁) :
    (executed l₁).length = x.played ∧ (games l₁).length = x.played := by
  obtain ⟨hstarted, hcompleted, -⟩ := h.before.counted
  obtain ⟨d', i, records, -, -, -, hx⟩ := h.captured.taken
  have hplayed : x.played = t.played := by rw [hx]; rfl
  rw [hb.standing] at hstarted hcompleted
  rw [h.captured.idle] at hcompleted
  have hlen : (games l₁).length = (l₁.filterMap Note.after?).length := List.length_map _
  rw [hlen, hplayed, hstarted]
  exact ⟨(Nat.zero_add _).symm, hcompleted.trans (Nat.zero_add _).symm⟩

theorem shelf_eq (h : Kept e₁ run x l₁ t l₂) (hb : Begun e d index e₁)
    (hrun : ∀ i ∈ run, ¬i.IsSelect) :
    (e₁.takeAll run).playback.shelf (e₁.takeAll run).env = e₁.playback.shelf e₁.env := by
  rw [takeAll_env hb.sound hrun, h.follows.shelf]

/-- A snapshot of a run of built-in commands can be rolled back to while the globals are those it
was taken with. -/
theorem rollback (h : Kept e₁ run x l₁ t l₂) (hb : Begun e d index e₁)
    (hrun : ∀ i ∈ run, ¬i.IsSelect) (hf : e.services.Faithful)
    (hnames : Standing.Starts (l₁ ++ l₂) (· ∈ Builtin.names))
    (hstored : ∀ s ∈ e₁.afters run, s.Storable ∧ s.globals = e.services.globals)
    {position : Nat} (hx : (e₁.takeAll run).stack.get? position = some x) :
    ∃ e₂, (e₁.takeAll run).rollback (.position position) = (e₂, .ok (.completed x.spot)) ∧
      Restored (e₁.takeAll run) t e₂ := by
  have hshelf := h.shelf_eq hb hrun
  have hidle : ∀ name, e₁.playback.standing.Current name → name ∈ Builtin.names := by
    rw [hb.standing]
    exact fun name hc => (Standing.not_current rfl name hc).elim
  obtain ⟨hn₁, hn₂⟩ := Standing.starts_append.1 hnames
  have hcur := (h.before.keeps (m := []) (P := (· ∈ Builtin.names)) (I := fun _ _ => True)
    (fun _ _ _ _ _ _ _ => trivial) hn₁ hidle trivial).2
  obtain ⟨ht, hp₁⟩ := h.before.domestic hb.sound.playback.shelf hn₁ hidle
    ⟨hb.sound.playback.placed, rfl⟩
  obtain ⟨-, hp₂⟩ := h.after.domestic hb.sound.playback.shelf hn₂ hcur ht
  have hafters : ∀ s ∈ (l₁ ++ l₂).filterMap Note.after?,
      s.Storable ∧ s.globals = e.services.globals := by
    intro s hs
    rw [← h.follows.afters] at hs
    obtain ⟨s', hs', rfl⟩ := List.mem_map.1 hs
    obtain ⟨hstorable, hglobals⟩ := hstored s' hs'
    exact ⟨⟨hstorable.finite, hstorable.calls⟩, hglobals⟩
  have hmem : t.services ∈ (l₁ ++ l₂).filterMap Note.after? :=
    List.mem_filterMap.2 ⟨_, List.mem_append_left l₂ h.lands.completed, rfl⟩
  have hglobals : (e₁.takeAll run).services.globals = e.services.globals := by
    have hstory : (e₁.takeAll run).playback.standing.services.globals = e.services.globals := by
      rcases h.follows.leads.services_eq with heq | hin
      · rw [heq, hb.standing]
        rfl
      · exact (hafters _ hin).2
    exact hstory
  have hpeers : t.services.Peers (e₁.takeAll run).services :=
    ⟨hp₂.variableStore, hp₂.textLog, hp₂.choices, hp₂.callStack, hp₂.host⟩
  have hfaithful : (e₁.takeAll run).services.Faithful := by
    have hall := hp₁.trans hpeers
    rw [hb.standing] at hall
    exact hf.peers ⟨hall.variableStore, hall.textLog, hall.choices, hall.callStack, hall.host⟩
  refine rollback_restores h.sound ?_ hx h.captured h.fresh (hshelf ▸ ht) hpeers
    ((hafters _ hmem).2.trans hglobals.symm) (hafters _ hmem).1 hfaithful
  refine h.follows.leads.held ?_
  rw [hb.standing]
  exact Option.some_ne_none d

/-- Rolling back to where no option was registered makes the engine ready if it was so at first. -/
theorem ready (h : Kept e₁ run x l₁ t l₂) (hb : Begun e d index e₁)
    (hsteady : Standing.Starts l₁ Builtin.Steady) (hpending : e₁.playback.choicesPending = false)
    {e₂ : Engine} (hr : Restored (e₁.takeAll run) t e₂) : e₂.Ready := by
  refine ⟨hr.going, ?_⟩
  have hchoices := (h.before.steady hb.sound.playback.shelf hsteady fun name hc => by
    rw [hb.standing] at hc
    exact (Standing.not_current rfl name hc).elim).1
  have hsame : e₂.playback.services.choices = e₁.playback.services.choices :=
    (congrArg (fun s : Standing => s.services.choices) hr.standing).trans hchoices
  unfold Playback.choicesPending ServiceSet.choicesPending at hpending ⊢
  rw [hsame]
  exact hpending

end Kept

end Engine

end Playhead
