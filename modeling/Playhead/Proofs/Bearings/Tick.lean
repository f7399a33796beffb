import Playhead.Proofs.Bearings.Basic
import Playhead.Proofs.Standing.Tick

/-!
The turns of a tick.
-/

namespace Playhead

namespace ScriptLibrary

variable {registry : Registry} {l k : ScriptLibrary} {source : Source}

theorem Sound.reads (hl : l.Sound registry) : l.Reads registry l :=
  ⟨hl, fun _ _ h => h, fun _ _ => .inl⟩

/-- A library after a script was looked up in it. -/
theorem Sound.load_reads (hr : source.registry.Sound) (hl : l.Sound source.registry)
    {name : String} {d : Document} (h : l.load source name = .ok (d, k)) :
    l.Reads source.registry k ∧ d.name = name ∧ k.get? name = some d := by
  obtain ⟨hk, hname, -⟩ := hl.load hr h
  cases hg : l.get? name with
  | some d' =>
    unfold ScriptLibrary.load at h
    rw [hg] at h
    cases h
    exact ⟨hl.reads, hname, hg⟩
  | none =>
    have hload : l.reload source name = .ok (d, k) := by
      unfold ScriptLibrary.load at h
      rwa [hg] at h
    have hget : ∀ other, k.get? other = if name = other then some d else l.get? other := by
      intro other
      rw [reload_eq_ok hload]
      exact NameMap.get?_insert l.documents name other d
    refine ⟨⟨hk, fun other d' hd' => ?_, fun other d' hd' => ?_⟩, hname,
      (hget name).trans (if_pos rfl)⟩
    · rw [hget, if_neg]
      · exact hd'
      · rintro rfl
        rw [hg] at hd'
        cases hd'
    · rw [hget] at hd'
      split at hd'
      · cases hd'
        exact .inr (parsed_of_reload hload)
      · exact .inl hd'

end ScriptLibrary

namespace Playback

variable {env : Env} {w : Leeway} {p q : Playback}

/-- All that a search for a script changes: scripts may have been read. -/
structure Looks (env : Env) (p q : Playback) (current : Document)
    (found : Except JumpError (Document × Nat)) : Prop where
  player : ∃ arrived, q.player = { p.player with arrivedByBranch := arrived }
  manager : q.manager = p.manager
  reads : p.library.Reads env.source.registry q.library
  held : ∀ d i, found = .ok (d, i) → d = current ∨ q.library.get? d.name = some d

theorem documentFor_looks (hr : env.source.registry.Sound)
    (hp : p.bearings.Read env.source.registry) (current : Document) (name : String) :
    Looks env p (p.documentFor env current name).1 current
      ((p.documentFor env current name).2.map (·, 0)) := by
  have hl : p.library.Sound env.source.registry := hp.library
  unfold documentFor
  split
  · exact ⟨⟨_, rfl⟩, rfl, hl.reads, fun d i h => .inl (by cases h; rfl)⟩
  · cases h : p.library.load env.source name with
    | ok r =>
      obtain ⟨d, k⟩ := r
      obtain ⟨hk, hname, hget⟩ := hl.load_reads hr h
      refine ⟨⟨_, rfl⟩, rfl, hk, fun d' i h => ?_⟩
      cases h
      exact .inr (hname.symm ▸ hget)
    | error e => exact ⟨⟨_, rfl⟩, rfl, hl.reads, fun d i h => by cases h⟩

theorem Looks.error {current : Document} {found : Except JumpError (Document × Nat)}
    (h : Looks env p q current found) (e : JumpError) : Looks env p q current (.error e) :=
  ⟨h.player, h.manager, h.reads, fun _ _ h => by cases h⟩

theorem Looks.at_index {current d : Document} {i : Nat} (h : Looks env p q current (.ok (d, i)))
    (j : Nat) : Looks env p q current (.ok (d, j)) :=
  ⟨h.player, h.manager, h.reads, fun d' j' h' => by cases h'; exact h.held d i rfl⟩

theorem resolveJump_looks (hr : env.source.registry.Sound)
    (hp : p.bearings.Read env.source.registry) {current : Document}
    (hd : p.player.document = some current) (target : JumpTarget) :
    Looks env p (p.resolveJump env target).1 current (p.resolveJump env target).2 := by
  unfold resolveJump
  simp only [hd]
  cases target with
  | label script label =>
    have h := documentFor_looks hr hp current (script.getD current.name)
    dsimp only
    generalize p.documentFor env current (script.getD current.name) = r at h ⊢
    obtain ⟨q, e | d⟩ := r
    · exact h.error e
    · have h : Looks env p q current (.ok (d, 0)) := h
      cases label with
      | none => exact h
      | some label =>
        dsimp only
        cases d.labelIndex? label with
        | none => exact h.error _
        | some i => exact h.at_index i
  | spot s =>
    have h := documentFor_looks hr hp current s.script
    dsimp only
    generalize p.documentFor env current s.script = r at h ⊢
    obtain ⟨q, e | d⟩ := r
    · exact h.error e
    · have h : Looks env p q current (.ok (d, 0)) := h
      dsimp only
      split
      · exact h.error _
      · exact h.at_index s.index

theorem follow_looks (hr : env.source.registry.Sound)
    (hp : p.bearings.Read env.source.registry) {d : Document}
    (hd : p.player.document = some d) (index : Nat) (flow : Flow) :
    Looks env p (p.follow env d index flow).1 d (p.follow env d index flow).2 := by
  have hl : p.library.Sound env.source.registry := hp.library
  cases flow with
  | advance | stop =>
    exact ⟨⟨_, rfl⟩, rfl, hl.reads, fun d' i h => .inl (by cases h; rfl)⟩
  | branch taken =>
    exact ⟨⟨_, rfl⟩, rfl, hl.reads, fun d' i h => .inl (by cases h; rfl)⟩
  | jump target => exact resolveJump_looks hr hp hd target

theorem Looks.bearings_eq {current : Document} {found : Except JumpError (Document × Nat)}
    (h : Looks env p q current found) : q.bearings = { p.bearings with library := q.library } := by
  obtain ⟨arrived, hplayer⟩ := h.player
  unfold bearings cursor
  rw [hplayer, h.manager]

theorem Looks.turns {current : Document} {found : Except JumpError (Document × Nat)}
    (h : Looks env p q current found) : Turns env w p q := by
  have hturn := Bearings.Turn.read (w := w) (b := p.bearings) h.reads
  rw [← h.bearings_eq] at hturn
  exact .one hturn

theorem Looks.holds {current d : Document} {i : Nat} (h : Looks env p q current (.ok (d, i)))
    (hd : p.player.document = some current) : q.bearings.Holds d := by
  rcases h.held d i rfl with rfl | hget
  · obtain ⟨arrived, hplayer⟩ := h.player
    refine .inl ?_
    show q.player.document = some d
    rw [hplayer]
    exact hd
  · exact .inr hget

/-- Main playback gets from one state to another by turns and has no command in flight there. -/
structure Rests (env : Env) (w : Leeway) (p q : Playback) : Prop where
  turns : Turns env w p q
  idle : q.player.active = none

theorem Turns.rests {r : Playback} (h : Turns env w p q) (h' : Rests env w q r) :
    Rests env w p r :=
  ⟨h.trans h'.turns, h'.idle⟩

theorem rests_stop (p : Playback) (reason : StopReason) : Rests env w p (p.stop reason) := by
  have h := p.bearings_stop reason
  refine ⟨?_, congrArg Bearings.active h⟩
  refine Bearings.Turns.trans (.one .drop) (.one ?_)
  rw [h]
  exact .leave rfl

theorem rests_endOfScript (ha : p.player.active = none) (reason : StopReason) :
    Rests env w p (p.endOfScript reason) :=
  ⟨.one (.leave ha), ha⟩

theorem rests_lockNewest (env : Env) (w : Leeway) (ha : p.player.active = none) (allow : Bool) :
    Rests env w p (p.lockNewest allow) ∧
      ∃ s, (p.lockNewest allow).bearings = { p.bearings with stack := s } := by
  unfold lockNewest
  split
  · exact ⟨⟨.refl p, ha⟩, _, rfl⟩
  · exact ⟨⟨.one (.allow false), ha⟩, _, rfl⟩

theorem rests_capture (env : Env) (w : Leeway) (ha : p.player.active = none) (d : Document)
    (next : Nat) (c : Completion) : Rests env w p (p.capture d next c) ∧
      ∃ s, (p.capture d next c).bearings = { p.bearings with stack := s } := by
  rcases p.bearings_capture d next c with h | ⟨x, hx, hplayed, h⟩
  · exact ⟨⟨.of_eq h, (congrArg Bearings.active h).trans ha⟩, _, h⟩
  · refine ⟨⟨.one ?_, ?_⟩, _, h⟩
    · rw [h]
      exact .capture ha hx hplayed
    · exact (congrArg Bearings.active h).trans ha

/-- Moving on after a command. -/
theorem complete_rests (hr : env.source.registry.Sound)
    (hp : p.bearings.Read env.source.registry) (ha : p.player.active = none)
    (hi : p.cursor.index ≠ none) (index : Nat) (c : Completion) (eligible : Bool) :
    Rests env w p (p.complete env index c eligible).1 := by
  unfold complete
  cases hd : p.player.document with
  | none => exact ⟨.refl p, ha⟩
  | some d =>
    have hlooks := follow_looks hr hp hd index c.flow
    dsimp only
    generalize p.follow env d index c.flow = r at hlooks ⊢
    obtain ⟨q, e | ⟨next, i⟩⟩ := r
    · exact hlooks.turns.rests (rests_stop q _)
    · obtain ⟨arrived, hplayer⟩ := hlooks.player
      have hplayer : q.player = { p.player with arrivedByBranch := arrived } := hplayer
      have hidle : q.player.active = none := by
        rw [hplayer]
        exact ha
      have hindex : q.bearings.index ≠ none := by
        show q.player.cursor.index ≠ none
        rw [hplayer]
        exact hi
      have hholds : q.bearings.Holds next := hlooks.holds hd
      have hlooks : Turns env w p q := hlooks.turns
      obtain ⟨hlock, s, hlocked⟩ := rests_lockNewest env w hidle c.allowRollback
      dsimp only
      obtain ⟨u, hu⟩ : ∃ u, u = if (eligible && decide (i < next.size)) = true then
          (q.lockNewest c.allowRollback).capture next i c else q.lockNewest c.allowRollback :=
        ⟨_, rfl⟩
      have hcapture : Rests env w (q.lockNewest c.allowRollback) u ∧
          ∃ s, u.bearings = { q.bearings with stack := s } := by
        rw [hu]
        split
        · obtain ⟨h, t, hcaptured⟩ := rests_capture env w hlock.idle next i c
          exact ⟨h, t, by rw [hcaptured, hlocked]⟩
        · exact ⟨⟨.refl _, hlock.idle⟩, s, hlocked⟩
      obtain ⟨hrests, s, hcaptured⟩ := hcapture
      have hmove : ∀ reason adds, Rests env w u ((u.moveTo next i reason).settle c adds) := by
        intro reason adds
        have h : ((u.moveTo next i reason).settle c adds).bearings = u.bearings.moveTo next i :=
          (bearings_settle _ c adds).trans (u.bearings_moveTo next i reason)
        refine ⟨.one ?_, (congrArg Bearings.active h).trans hrests.idle⟩
        rw [h]
        refine .move ?_ i ?_ (.inl hrests.idle)
        · rw [hcaptured]
          exact hholds
        · rw [hcaptured]
          exact hindex
      rw [← hu]
      exact ((hlooks.trans hlock.turns).trans hrests.turns).rests (hmove _ _)

/-- What starting a command comes to: it is in flight at the cursor, or nothing is. -/
structure Begins (env : Env) (w : Leeway) (p : Playback) (r : Playback × Except JumpError Begin) :
    Prop where
  turns : Turns env w p r.1
  idle : r.2 ≠ .ok .started → r.1.player.active = none
  index : r.2 = .ok .started → r.1.cursor.index ≠ none

theorem Turns.begins {r : Playback × Except JumpError Begin} (h : Turns env w p q)
    (h' : Begins env w q r) : Begins env w p r :=
  ⟨h.trans h'.turns, h'.idle, h'.index⟩

theorem Turns.begins_idle (h : Turns env w p q) (ha : q.player.active = none) :
    Begins env w p (q, .ok .idle) :=
  ⟨h, fun _ => ha, fun h => by cases h⟩

/-- Starting a command: it is in flight then, or it has faulted and was passed. -/
theorem begin_begins (hr : env.source.registry.Sound) (hp : p.bearings.Read env.source.registry)
    (ha : p.player.active = none) {d : Document} {index : Nat} {c : Command} {h : Handler}
    (hd : p.player.document = some d) (hi : p.cursor.index = some index)
    (hc : d.command? index = some c) (hh : env.source.registry.get? c.name = some h) :
    Begins env w p (p.begin env d index c h) := by
  obtain ⟨r, hr'⟩ : ∃ r, r = p.begin env d index c h := ⟨_, rfl⟩
  rw [← hr']
  obtain ⟨u, hu⟩ : ∃ u, u = p.reported env ⟨d.name, index⟩ c.name := ⟨_, rfl⟩
  have hub : u.bearings = { p.bearings with played := p.bearings.played + 1 } := by
    rw [hu, reported, bearings_emit, bearings_trackRead]
    rfl
  have hrest := hr'.trans (begin_eq env p d index c h)
  rw [← hu] at hrest
  cases ht : h.begin c with
  | ok task =>
    rw [ht] at hrest
    have hb : r.1.bearings = { p.bearings with
        played := p.bearings.played + 1, active := some ⟨index, task, h.eligible⟩ } := by
      rw [hrest]
      exact congrArg (fun b : Bearings => { b with active := some ⟨index, task, h.eligible⟩ }) hub
    refine ⟨.one ?_, fun hne => absurd (by rw [hrest]) hne, fun _ => ?_⟩
    · rw [hb]
      exact .start hd hi ha hc hh ht
    · have hindex : r.1.cursor.index = some index := (congrArg Bearings.index hb).trans hi
      exact hindex ▸ Option.some_ne_none index
  | error f =>
    rw [ht] at hrest
    dsimp only at hrest
    obtain ⟨v, hv⟩ : ∃ v, v = u.reportFault ⟨d.name, index⟩ f.message := ⟨_, rfl⟩
    have hvb : v.bearings = { p.bearings with played := p.bearings.played + 1 } := by
      rw [hv]
      exact hub
    have hfault : Turns env w p v := by
      refine .one ?_
      rw [hvb]
      exact .fault ha
    have hvi : v.cursor.index = some index := (congrArg Bearings.index hvb).trans hi
    have hcomplete := complete_rests (w := w) hr (hp.turns hfault)
      ((congrArg Bearings.active hvb).trans ha) (hvi ▸ Option.some_ne_none index) index
      (.ofFault c.role) h.eligible
    rw [← hv] at hrest
    have hend : r.1 = (v.complete env index (.ofFault c.role) h.eligible).1 := by
      rw [hrest]
      exact fst_passed _
    refine ⟨hend ▸ hfault.trans hcomplete.turns, fun _ => hend ▸ hcomplete.idle, fun hstarted => ?_⟩
    rw [hrest] at hstarted
    exact absurd hstarted (snd_passed_ne _).2

theorem beginWithin_begins (n : Nat) (hr : env.source.registry.Sound)
    (hp : p.bearings.Read env.source.registry) (ha : p.player.active = none) {d : Document}
    {i : Nat} (hd : p.player.document = some d) (hi : p.cursor.index = some i)
    (hn : d.size - i < n) : Begins env w p (p.beginWithin env n) := by
  induction n generalizing p i with
  | zero => cases hn
  | succ n ih =>
    by_cases hlt : i < d.size
    · obtain ⟨c, hc⟩ : ∃ c, d.command? i = some c := ⟨_, Array.getElem?_eq_getElem hlt⟩
      have hstaged := hp.document d hd
      obtain ⟨h, hh, -, -⟩ := hstaged.handler hc
      cases hf : (p.checkForward d i).2 with
      | true =>
        have hforward := p.bearings_checkForward d i
        rw [beginWithin_reached hf hd hi hc]
        exact Turns.begins_idle (.of_eq hforward) ((congrArg Bearings.active hforward).trans ha)
      | false =>
        rw [beginWithin_eq hf hd hi hc hh]
        cases he : d.entry i p.player.arrivedByBranch p.services with
        | run =>
          have hentering : Turns env w p p.entering := .of_eq rfl
          exact hentering.begins (begin_begins (p := p.entering) (w := w) hr hp ha hd hi hc hh)
        | skip next =>
          have hnext := entry_skip_lt hstaged he
          obtain ⟨q, hq⟩ : ∃ q, q = p.entering.withCursor { p.cursor with index := some next } :=
            ⟨_, rfl⟩
          have hqb : q.bearings = { p.bearings with index := some next } := by rw [hq]; rfl
          have hqd : q.player.document = some d := (congrArg Bearings.document hqb).trans hd
          have hqi : q.cursor.index = some next := congrArg Bearings.index hqb
          have hqa : q.player.active = none := (congrArg Bearings.active hqb).trans ha
          dsimp only
          rw [← hq]
          by_cases hsize : next < d.size
          · have hturn : Turns env w p q := by
              refine .one ?_
              rw [hqb]
              exact .pass hd hsize (fun hnone => by cases hi.symm.trans hnone) ha
            exact hturn.begins (ih (hp.turns hturn) hqa hqd hqi (by omega))
          · rw [beginWithin_end (by omega) hqd hqi (Nat.le_of_not_lt hsize)]
            refine Turns.begins_idle (.one ?_) hqa
            have hb : (q.endOfScript .endOfScript).bearings = { p.bearings with index := none } :=
              congrArg (fun b : Bearings => { b with index := none }) hqb
            rw [hb]
            exact .leave ha
    · rw [beginWithin_end (Nat.succ_pos n) hd hi (Nat.le_of_not_lt hlt)]
      exact (rests_endOfScript ha _).turns.begins_idle ha

theorem beginNext_begins (hr : env.source.registry.Sound)
    (hp : p.bearings.Read env.source.registry) (ha : p.player.active = none) :
    Begins env w p (p.beginNext env) := by
  unfold beginNext
  by_cases h : p.player.document = none ∨ p.cursor.index = none
  · rw [beginWithin_over _ h]
    exact (Turns.refl p).begins_idle ha
  · obtain ⟨d, hd⟩ := Option.ne_none_iff_exists'.1 fun hd => h (.inl hd)
    obtain ⟨i, hi⟩ := Option.ne_none_iff_exists'.1 fun hi => h (.inr hi)
    rw [hd]
    exact beginWithin_begins _ hr hp ha hd hi (Nat.lt_succ_of_le (Nat.sub_le _ _))

/-- Stepping the command in flight: it has completed, or it is still in flight. -/
theorem stepActive_turns (hr : env.source.registry.Sound)
    (hp : p.bearings.Read env.source.registry) {a : ActiveCommand}
    (ha : p.player.active = some a) (hi : p.cursor.index ≠ none) (delta : Nanoseconds) :
    Turns env w p (p.stepActive env a delta).1 ∧
      ((p.stepActive env a delta).2 = .ok true →
        (p.stepActive env a delta).1.player.active = none) := by
  have hfinish : ∀ (q : Playback) (c : Completion),
      q.bearings = { p.bearings with active := none } →
      let r := finished (q.complete env a.index c a.eligible)
      Turns env w p r.1 ∧ (r.2 = .ok true → r.1.player.active = none) := by
    intro q c hq r
    have hdrop : Turns env w p q := by
      refine .one ?_
      rw [hq]
      exact .drop
    have hindex : q.cursor.index = p.cursor.index := congrArg Bearings.index hq
    have hcomplete := complete_rests (w := w) hr (hp.turns hdrop) (congrArg Bearings.active hq)
      (hindex ▸ hi) a.index c a.eligible
    have hend : r.1 = (q.complete env a.index c a.eligible).1 := fst_finished _
    rw [hend]
    exact ⟨hdrop.trans hcomplete.turns, fun _ => hcomplete.idle⟩
  unfold stepActive
  dsimp only
  split
  · exact ⟨.refl p, fun h => by cases h⟩
  · split
    · exact ⟨.one (.drop (b := p.bearings)), fun _ => rfl⟩
    · generalize hstep : a.task.step _ p.services = r
      obtain ⟨⟨task, why⟩ | ⟨done⟩ | ⟨f⟩, s⟩ := r
      · refine ⟨.one ?_, fun h => by cases h⟩
        exact .work (b := p.bearings) ha hstep
      · exact hfinish _ _ rfl
      · exact hfinish _ _ rfl

theorem run_turns (n : Nat) (hr : env.source.registry.Sound)
    (hp : p.bearings.Read env.source.registry) (ha : p.player.active = none)
    (delta : Nanoseconds) : Turns env w p (run env n delta p).1 := by
  induction n generalizing p delta with
  | zero => exact .refl p
  | succ n ih =>
    unfold run
    split
    · exact .refl p
    · have hbegin := beginNext_begins (w := w) hr hp ha
      generalize p.beginNext env = r at hbegin ⊢
      obtain ⟨q, e | (_ | _ | _)⟩ := r
      · exact hbegin.turns
      · have hturns : Turns env w p q := hbegin.turns
        dsimp only
        cases hq : q.player.active with
        | none => exact hturns
        | some a =>
          have hread := hp.turns hturns
          obtain ⟨hstep, hidle⟩ := stepActive_turns (w := w) hr hread hq (hbegin.index rfl) delta
          dsimp only
          generalize q.stepActive env a delta = r at hstep hidle ⊢
          obtain ⟨u, e | (_ | _)⟩ := r
          · exact hturns.trans hstep
          · exact hturns.trans hstep
          · exact (hturns.trans hstep).trans (ih (hread.turns hstep) (hidle rfl) 0)
      · exact hbegin.turns.trans (ih (hp.turns hbegin.turns) (hbegin.idle (by simp)) delta)
      · exact hbegin.turns

theorem advance_turns (hr : env.source.registry.Sound)
    (hp : p.bearings.Read env.source.registry) (hi : p.cursor.index ≠ none)
    (delta : Nanoseconds) :
    Turns env w p (p.advance env delta).1 := by
  unfold advance
  cases ha : p.player.active with
  | none => exact run_turns _ hr hp ha delta
  | some a =>
    dsimp only
    split
    · have hdrop : Turns env w p { p with player := { p.player with active := none } } :=
        .one (.drop (b := p.bearings))
      exact hdrop.trans (run_turns _ hr (hp.turns hdrop) rfl delta)
    · obtain ⟨hstep, hidle⟩ := stepActive_turns (w := w) hr hp ha hi delta
      generalize p.stepActive env a delta = r at hstep hidle ⊢
      obtain ⟨u, e | (_ | _)⟩ := r
      · exact hstep
      · exact hstep
      · exact hstep.trans (run_turns _ hr (hp.turns hstep) (hidle rfl) 0)

theorem interrupt_bearings (p : Playback) :
    p.interrupt.bearings = { p.bearings with active := none } :=
  p.bearings_cancelActive

theorem index_of_isRunning (h : p.player.isRunning = true) : p.cursor.index ≠ none := by
  intro hnone
  have hstopped : p.player.cursor.isStopped = true := Option.isNone_iff_eq_none.2 hnone
  unfold Player.isRunning at h
  rw [hstopped, Bool.not_true, Bool.and_false] at h
  cases h

theorem tick_turns (hr : env.source.registry.Sound) (hp : p.bearings.Read env.source.registry)
    (delta : Nanoseconds) : Turns env w p (p.tick env delta).1 := by
  unfold tick
  split
  · exact .refl p
  · rename_i hrunning
    have hi := index_of_isRunning (by simpa using hrunning)
    split
    · refine .one ?_
      rw [interrupt_bearings]
      exact .drop
    · split
      · have hleave := p.bearings_leaveWait env delta
        generalize p.leaveWait env delta = r at hleave ⊢
        obtain ⟨q, _ | _⟩ := r
        · exact .of_eq hleave
        · have hq : Turns env w p q := .of_eq hleave
          have hindex : q.cursor.index = p.cursor.index := congrArg Bearings.index hleave
          exact hq.trans (advance_turns hr (hp.turns hq) (hindex ▸ hi) delta)
      · exact advance_turns hr hp hi delta

theorem forward_turns (startedAt left : Nat) (hr : env.source.registry.Sound)
    (hp : p.bearings.Read env.source.registry) :
    Turns env w p (forward env startedAt left p).1 := by
  induction left generalizing p with
  | zero =>
    unfold forward
    split
    · exact .refl p
    · split
      · exact .refl p
      · split <;> exact .refl p
  | succ left ih =>
    unfold forward
    split
    · exact .refl p
    · split
      · exact .refl p
      · split
        · exact .refl p
        · have htick := tick_turns (w := w) hr hp 0
          dsimp only
          generalize p.tick env 0 = r at htick ⊢
          obtain ⟨q, e | u⟩ := r
          · exact htick
          · exact htick.trans (ih (hp.turns htick))

theorem fastForward_turns (hr : env.source.registry.Sound)
    (hp : p.bearings.Read env.source.registry) (target : Nat) :
    Turns env w p (p.fastForward env target).1 := by
  unfold fastForward
  split
  · rename_i d start hd hi
    split
    · exact .refl p
    · split
      · exact .refl p
      · dsimp only
        have hbegun : Turns env w p { p with player := { p.player with
            cursor := { p.cursor with skipping := true }
            fastForward := some ⟨d.name, target, false, false⟩ } } := .of_eq rfl
        have hforward := forward_turns (w := w) p.cursor.played (env.config.fastForwardLimit + 1)
          hr (hp.turns hbegun)
        generalize forward env p.cursor.played (env.config.fastForwardLimit + 1) _ = r at hforward ⊢
        exact (hbegun.trans hforward).trans (.of_eq rfl)
  · exact .refl p

end Playback

end Playhead
