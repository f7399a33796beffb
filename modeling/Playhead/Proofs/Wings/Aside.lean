import Playhead.Proofs.Engine.Drive
import Playhead.Proofs.Wings.Runner
import Playhead.Proofs.Wings.Standing

/-!
Ticks of an engine in which a single transient script plays and main playback is at rest.
-/

namespace Playhead

open Standing (Alike)

/-- What the runs note of their turns, one after the other. -/
def TransientRunner.turnNotes (registry : Registry) (c : Cancellations) (delta : Nanoseconds)
    (budget : Nat) : List TransientRun → Scene → List Note
  | [], _ => []
  | r :: rest, s =>
    let cancelled := c.isCancelled r.scope
    r.advanceNotes registry cancelled s delta budget ++
      match r.advance registry cancelled s delta budget with
      | (_, s, none) => turnNotes registry c delta budget rest s
      | (r, s, some status) =>
        turnNotes registry c delta budget rest (s.emit (.transientFinished r.handle status))

namespace Engine

/-- What the transient scripts note of a tick. -/
def asideNotes (e : Engine) (delta : Nanoseconds) : List Note :=
  let e := ({ e with playback := (e.playback.tick e.env delta).1 } : Engine).reapCancelled
  TransientRunner.turnNotes e.registry e.playback.scopes delta e.config.player.maxCommands
    e.transients.runs e.playback.scene

/-- What the transient scripts note of ticks. -/
def asides : Engine → List Nanoseconds → List Note
  | _, [] => []
  | e, delta :: rest => e.asideNotes delta ++ (e.take (.tick delta)).asides rest

/-- So many spans of time. -/
def spans (delta : Nat → Nanoseconds) (n : Nat) : List Nanoseconds :=
  (List.range n).map delta

/-- Main playback rests, and the only transient script is at a standing or has ended there. -/
structure Beside (e : Engine) (w : Shelf) (d : Document) (h : TransientHandle) (t : Standing) :
    Prop where
  rests : e.player.document = none
  registry : e.registry = w.registry
  budget : 0 < e.config.player.maxCommands
  run : (∃ r, e.transients.runs = [r] ∧ r.handle = h ∧
      e.playback.scopes.isCancelled r.scope = false ∧ r.Stands w d e.services t) ∨
    e.transients.runs = [] ∧ t.index = none ∧ t.services = e.services.story

/-- Ticks have brought a transient script from one standing to another. -/
structure Trails (e : Engine) (w : Shelf) (d : Document) (h : TransientHandle) (t : Standing)
    (times : List Nanoseconds) (l : List Note) (u : Standing) : Prop where
  leads : t.Leads w l u
  alike : Alike l (e.asides times)
  beside : (e.takeAll (times.map .tick)).Beside w d h u

variable {e : Engine} {w : Shelf} {d : Document} {h : TransientHandle} {t u v : Standing}
  {r : TransientRun} {l m : List Note} {times times' : List Nanoseconds}

theorem spans_add (delta : Nat → Nanoseconds) (m n : Nat) :
    spans delta (m + n) = spans delta m ++ spans (fun i => delta (m + i)) n := by
  unfold spans
  rw [List.range_add, List.map_append, List.map_map]
  rfl

theorem asides_append (e : Engine) (times times' : List Nanoseconds) :
    e.asides (times ++ times') = e.asides times ++ (e.takeAll (times.map .tick)).asides times' := by
  induction times generalizing e with
  | nil => rfl
  | cons delta rest ih =>
    show e.asideNotes delta ++ (e.take (.tick delta)).asides (rest ++ times') = _
    rw [ih, ← List.append_assoc]
    rfl

theorem Trails.append (ht : e.Trails w d h t times l u)
    (hu : (e.takeAll (times.map .tick)).Trails w d h u times' m v) :
    e.Trails w d h t (times ++ times') (l ++ m) v where
  leads := ht.leads.trans hu.leads
  alike := by
    rw [asides_append]
    exact ht.alike.append hu.alike
  beside := by
    rw [List.map_append, takeAll_append]
    exact hu.beside

theorem Trails.one {delta : Nanoseconds} (hl : t.Leads w l u) (ha : Alike l (e.asideNotes delta))
    (hb : (e.take (.tick delta)).Beside w d h u) : e.Trails w d h t [delta] l u := by
  refine ⟨hl, ?_, hb⟩
  show Alike l (e.asideNotes delta ++ [])
  rw [List.append_nil]
  exact ha

theorem Beside.index_eq (hb : e.Beside w d h t) (hr : e.transients.runs = []) : t.index = none := by
  rcases hb.run with ⟨r, hr', -⟩ | ⟨-, hi, -⟩
  · rw [hr] at hr'
    cases hr'
  · exact hi

theorem Beside.services_eq (hb : e.Beside w d h t) : t.services = e.services.story := by
  rcases hb.run with ⟨r, -, -, -, hr⟩ | ⟨-, -, hs⟩
  · exact hr.services
  · exact hs

theorem Beside.going (hb : e.Beside w d h t) (hi : t.index ≠ none) :
    ∃ r, e.transients.runs = [r] ∧ e.playback.scopes.isCancelled r.scope = false := by
  rcases hb.run with ⟨r, hr, -, hc, -⟩ | ⟨-, hnone, -⟩
  · exact ⟨r, hr, hc⟩
  · exact absurd hnone hi

theorem Beside.isRunning_eq (hb : e.Beside w d h t) :
    e.transients.isRunning h = !e.transients.runs.isEmpty := by
  unfold TransientRunner.isRunning
  rcases hb.run with ⟨r, hr, rfl, -⟩ | ⟨hr, -⟩
  · rw [hr]
    simp
  · rw [hr]
    rfl

theorem tick_rests (hd : e.player.document = none) (delta : Nanoseconds) :
    e.playback.tick e.env delta = (e.playback, .ok ()) := by
  have hrun : e.playback.player.isRunning = false := by
    unfold Player.isRunning
    rw [show e.playback.player.document = none from hd]
    rfl
  unfold Playback.tick
  rw [hrun]
  rfl

theorem reapCancelled_one (hr : e.transients.runs = [r])
    (hc : e.playback.scopes.isCancelled r.scope = false) : e.reapCancelled = e := by
  have hreap : e.transients.reapCancelled e.playback.scopes e.playback.scene =
      (e.transients, e.playback.scene) := by
    unfold TransientRunner.reapCancelled TransientRunner.visitAll
    rw [hr]
    unfold TransientRunner.visit
    rw [hc]
    show ({ e.transients with runs := [r] }, e.playback.scene) = _
    rw [← hr]
  unfold reapCancelled
  rw [hreap]

/-- A tick is a turn of the one run. -/
theorem take_tick_one (hd : e.player.document = none) (hr : e.transients.runs = [r])
    (hc : e.playback.scopes.isCancelled r.scope = false) (delta : Nanoseconds) :
    e.asideNotes delta = r.advanceNotes e.registry false e.playback.scene delta
        e.config.player.maxCommands ∧
      e.take (.tick delta) =
        match r.advance e.registry false e.playback.scene delta e.config.player.maxCommands with
        | (r, s, none) => { e with
            transients := { e.transients with runs := [r] }
            playback := { e.playback with scene := s } }
        | (r, s, some status) => { e with
            transients := ({ e.transients with runs := [] } : TransientRunner).remember r.handle
              status
            playback := { e.playback with scene := s.emit (.transientFinished r.handle status) } } := by
  have hreap : ({ e with playback := (e.playback.tick e.env delta).1 } : Engine).reapCancelled =
      e := by
    rw [tick_rests hd]
    exact reapCancelled_one hr hc
  constructor
  · unfold asideNotes
    rw [hreap]
    dsimp only
    rw [hr]
    unfold TransientRunner.turnNotes
    rw [hc]
    dsimp only
    split <;> exact List.append_nil _
  · show (e.tick delta).1 = _
    unfold tick
    dsimp only
    rw [hreap]
    unfold TransientRunner.tick TransientRunner.visitAll
    rw [hr]
    unfold TransientRunner.visit
    rw [hc]
    rcases r.advance e.registry false e.playback.scene delta e.config.player.maxCommands with
      ⟨r', s, _ | status⟩ <;> rfl

/-- What a run has come to is where the engine stands beside main playback. -/
theorem Beside.of_rests (hb : e.Beside w d h t) (hr : e.transients.runs = [r]) (hh : r.handle = h)
    (hc : e.playback.scopes.isCancelled r.scope = false) {delta : Nanoseconds}
    (hx : TransientRun.Rests w d u
      (r.advance e.registry false e.playback.scene delta e.config.player.maxCommands)) :
    (e.take (.tick delta)).Beside w d h u := by
  obtain ⟨hhandle, hscope, -⟩ := TransientRun.advance_same e.registry false r e.playback.scene delta
    e.config.player.maxCommands
  rw [(take_tick_one hb.rests hr hc delta).2]
  cases hx' : r.advance e.registry false e.playback.scene delta e.config.player.maxCommands with
  | mk r' x =>
    obtain ⟨s, ended⟩ := x
    rw [hx'] at hx hhandle hscope
    cases hx with
    | going hr' =>
      exact ⟨hb.rests, hb.registry, hb.budget, .inl ⟨r', rfl, hhandle.trans hh, by
        show e.playback.scopes.isCancelled r'.scope = false
        rw [hscope]
        exact hc, hr'⟩⟩
    | ended _ status hi hs => exact ⟨hb.rests, hb.registry, hb.budget, .inr ⟨rfl, hi, hs⟩⟩

theorem take_tick_none (hd : e.player.document = none) (hr : e.transients.runs = [])
    (delta : Nanoseconds) : e.asideNotes delta = [] ∧ e.take (.tick delta) = e := by
  have htick : e.take (.tick delta) = { e with playback := (e.playback.tick e.env delta).1 } :=
    tick_alone hr delta
  rw [tick_rests hd] at htick
  refine ⟨?_, htick⟩
  unfold asideNotes
  rw [tick_rests hd, reapCancelled_alone hr]
  dsimp only
  rw [hr]
  rfl

section

variable (hd : d.Enclosed) (hw : w.Sound) (hstaged : d.Staged w.registry)

include hd hw hstaged

/-- A tick is a turn of the run, if the run has not ended. -/
theorem Beside.turn (hb : e.Beside w d h t) (hr : e.transients.runs = [r])
    (delta : Nanoseconds) :
    TransientRun.Turn w d t (r.left - delta)
        (r.advance e.registry false e.playback.scene delta e.config.player.maxCommands)
        (e.asideNotes delta) ∧
      ∀ u, TransientRun.Rests w d u
          (r.advance e.registry false e.playback.scene delta e.config.player.maxCommands) →
        (e.take (.tick delta)).Beside w d h u := by
  rcases hb.run with ⟨r', hr', hh, hc, hstands⟩ | ⟨hnone, -⟩
  · cases (List.cons.inj (hr.symm.trans hr')).1
    rw [(take_tick_one hb.rests hr hc delta).1]
    refine ⟨?_, fun u hu => hb.of_rests hr hh hc hu⟩
    rw [hb.registry]
    exact TransientRun.advance_turn hd hw hstaged hstands hb.budget delta
  · rw [hnone] at hr
    cases hr

theorem Beside.tick (hb : e.Beside w d h t) (delta : Nanoseconds) :
    ∃ l u, e.Trails w d h t [delta] l u := by
  rcases hb.run with ⟨r, hr, -⟩ | ⟨hr, -⟩
  · obtain ⟨hturn, hrests⟩ := hb.turn hd hw hstaged hr delta
    obtain ⟨l, u, hl, halike, hx⟩ := hturn.along
    exact ⟨l, u, .one hl halike (hrests u hx)⟩
  · obtain ⟨hnotes, htake⟩ := take_tick_none hb.rests hr delta
    exact ⟨[], t, .one (.refl t) (hnotes ▸ .nil) (by rw [htake]; exact hb)⟩

/-- Ticks bring a transient script along the standings of main playback. -/
theorem Beside.ticks (hb : e.Beside w d h t) (times : List Nanoseconds) :
    ∃ l u, e.Trails w d h t times l u := by
  induction times generalizing e t with
  | nil => exact ⟨[], t, .refl t, .nil, hb⟩
  | cons delta rest ih =>
    obtain ⟨l, u, hu⟩ := hb.tick hd hw hstaged delta
    obtain ⟨m, v, hv⟩ := ih hu.beside
    exact ⟨l ++ m, v, hu.append hv⟩

/-- While a wait is in flight, time that passes brings its end. -/
theorem Beside.strides (n : Nat) {delta : Nat → Nanoseconds} (hpos : ∀ i, 0 < delta i)
    (hb : e.Beside w d h t) (hn : ∀ r ∈ e.transients.runs, r.left < n)
    (hnext : t.next w = some (l, u)) :
    ∃ n m v, e.Trails w d h t (spans delta n) (l ++ m) v ∧ u.Leads w m v := by
  have hi : t.index ≠ none := by
    intro hi
    rw [Standing.next_of_index hi] at hnext
    cases hnext
  induction n generalizing e delta with
  | zero =>
    obtain ⟨r, hr, -⟩ := hb.going hi
    exact absurd (hn r (hr ▸ List.mem_singleton_self r)) (Nat.not_lt_zero _)
  | succ n ih =>
    obtain ⟨r, hr, hc⟩ := hb.going hi
    have hleft := hn r (hr ▸ List.mem_singleton_self r)
    have hdelta := hpos 0
    have htake := (take_tick_one hb.rests hr hc (delta 0)).2
    obtain ⟨hturn, hrests⟩ := hb.turn hd hw hstaged hr (delta 0)
    generalize hk : e.asideNotes (delta 0) = k at hturn
    generalize r.advance e.registry false e.playback.scene (delta 0)
      e.config.player.maxCommands = x at hturn hrests htake
    cases hturn with
    | ended r status hnone hs => exact absurd hnone hi
    | goes hnext' halike hgoes =>
      cases hnext.symm.trans hnext'
      obtain ⟨m, v, hm, halike', hrest⟩ := hgoes
      exact ⟨1, m, v, .one (.step hnext hm) (hk ▸ halike.append halike') (hrests v hrest), hm⟩
    | @waits r' s hr' hpos' hle =>
      have hwait : e.Trails w d h t [delta 0] [] t :=
        .one (.refl t) (hk ▸ .nil) (hrests t (.going hr'))
      have hshorter : ∀ q ∈ (e.take (.tick (delta 0))).transients.runs, q.left < n := by
        intro q hq
        rw [htake] at hq
        cases List.mem_singleton.1 hq
        have hwaiting := Nat.lt_of_lt_of_le hpos' (Nat.le_trans hle (Nat.sub_le _ _))
        exact Nat.lt_of_lt_of_le (Nat.lt_of_le_of_lt hle (Nat.sub_lt hwaiting hdelta))
          (Nat.le_of_lt_succ hleft)
      obtain ⟨k, m, v, hv, hu⟩ := ih (fun i => hpos (1 + i)) hwait.beside hshorter
      exact ⟨1 + k, m, v, spans_add delta 1 k ▸ hwait.append hv, hu⟩

theorem Trails.strides {n : Nat} {delta : Nat → Nanoseconds} (hpos : ∀ i, 0 < delta i)
    (ht : e.Trails w d h t (spans delta n) m u) (hnext : u.next w = some (l, v)) :
    ∃ r q, v.Leads w r q ∧ ∃ n, e.Trails w d h t (spans delta n) (m ++ (l ++ r)) q := by
  obtain ⟨b, hbound⟩ : ∃ b, ∀ r ∈ (e.takeAll ((spans delta n).map .tick)).transients.runs,
      r.left < b := by
    rcases ht.beside.run with ⟨r, hr, -⟩ | ⟨hr, -⟩
    · refine ⟨r.left + 1, fun q hq => ?_⟩
      rw [hr] at hq
      cases List.mem_singleton.1 hq
      exact Nat.lt_succ_self _
    · refine ⟨0, fun q hq => ?_⟩
      rw [hr] at hq
      cases hq
  obtain ⟨n', r, q, hq, hr⟩ :=
    ht.beside.strides hd hw hstaged b (fun i => hpos (n + i)) hbound hnext
  exact ⟨r, q, hr, n + n', spans_add delta n n' ▸ ht.append hq⟩

/-- In the end a transient script passes every standing that is ahead of it. -/
theorem Beside.outruns {delta : Nat → Nanoseconds} (hpos : ∀ i, 0 < delta i)
    (hb : e.Beside w d h t) (hl : t.Leads w l u) :
    ∃ r v, u.Leads w r v ∧ ∃ n, e.Trails w d h t (spans delta n) (l ++ r) v :=
  hl.outrun (P := fun m v => ∃ n, e.Trails w d h t (spans delta n) m v) (k := [])
    (fun _ _ _ _ ⟨_, hs⟩ hnext => hs.strides hd hw hstaged hpos hnext) (.refl t)
    ⟨0, .refl t, .nil, hb⟩

/-- Where the story is over, one more tick ends the run. -/
theorem Beside.ends (hb : e.Beside w d h t) (hi : t.index = none) (delta : Nanoseconds) :
    e.Trails w d h t [delta] [] t ∧ (e.take (.tick delta)).transients.isRunning h = false := by
  have hnext := Standing.next_of_index (w := w) hi
  rcases hb.run with ⟨r, hr, -, hc, -⟩ | ⟨hr, -⟩
  · have htake := (take_tick_one hb.rests hr hc delta).2
    obtain ⟨hturn, hrests⟩ := hb.turn hd hw hstaged hr delta
    generalize hk : e.asideNotes delta = k at hturn
    generalize r.advance e.registry false e.playback.scene delta
      e.config.player.maxCommands = x at hturn hrests htake
    cases hturn with
    | ended r' status hnone hs =>
      refine ⟨.one (.refl t) (hk ▸ .nil) (hrests t (.ended r' status hi hs)), ?_⟩
      rw [htake]
      rfl
    | goes hnext' => cases hnext.symm.trans hnext'
    | @waits r' s hr' hpos' hle =>
      cases ha : r'.active with
      | none => exact absurd (TransientRun.left_idle ha) (Nat.ne_of_gt hpos')
      | some a =>
        obtain ⟨c, k, hf⟩ := hr'.flight a.1 a.2 ha
        exact absurd (hi.symm.trans hf.index) nofun
  · obtain ⟨hnotes, htake⟩ := take_tick_none hb.rests hr delta
    refine ⟨.one (.refl t) (hnotes ▸ .nil) (by rw [htake]; exact hb), ?_⟩
    rw [htake, hb.isRunning_eq, hr]
    rfl

end

end Engine

end Playhead
