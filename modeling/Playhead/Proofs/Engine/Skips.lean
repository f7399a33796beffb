import Playhead.Proofs.Engine.Chronicle
import Playhead.Proofs.Motion.Deeds
import Playhead.Proofs.Services.Task

/-!
Skipping over what was read passes only commands that were started before, through rollbacks, loads
of games and playthroughs.

Moves that start a command are told by what they report, and the register of what was read is
written by them alone. It goes by name and index, whatever content a script has: that a command was
read is taken for true of the one at its place in a later revision.
-/

namespace Playhead

namespace Played

theorem contains_insert (s : IndexSet) (n k : Nat) :
    (s.insert n).contains k = true ↔ k = n ∨ s.contains k = true := by
  unfold IndexSet.insert IndexSet.contains
  rw [List.contains_iff_mem, List.contains_iff_mem]
  exact IndexSet.mem_place

/-- A command that is marked counts as played beside those that were. -/
theorem isPlayed_mark (p : Played) (s t : Spot)
    (h : (p.mark s.script s.index).isPlayed t.script t.index = true) :
    t = s ∨ p.isPlayed t.script t.index = true := by
  obtain ⟨script, i⟩ := s
  obtain ⟨other, k⟩ := t
  unfold mark isPlayed at h
  rw [NameMap.get?_insert] at h
  by_cases hname : script = other
  · subst hname
    rw [if_pos rfl, Option.map_some, Option.getD_some] at h
    rcases (contains_insert _ i k).1 h with rfl | h
    · exact .inl rfl
    · refine .inr ?_
      unfold isPlayed
      dsimp only
      cases hget : p.scripts.get? script with
      | none =>
        rw [hget] at h
        cases h
      | some indices =>
        rw [hget] at h
        exact h
  · rw [if_neg hname] at h
    exact .inr h

end Played

namespace Playback

/-- What a move reports. -/
def Move.reports (m : Move) : List Event :=
  m.after.scene.events.drop m.before.scene.events.length

/-- The places of the commands that a move starts. -/
def Move.started (m : Move) : List Spot :=
  m.reports.filterMap fun
    | .commandExecuted spot _ => some spot
    | _ => none

/-- The place of a command that a move starts while skip is on and stays on: its start is the first
that the move reports, and the end of skipping would be reported before it. -/
def Move.passed? (m : Move) : Option Spot :=
  match m.before.cursor.skipping, m.reports with
  | true, .commandExecuted spot _ :: _ => some spot
  | _, _ => none

variable {env : Env} {p q : Playback} {m : Move} {H : List Move} {spot : Spot}

theorem Move.mem_started : spot ∈ m.started ↔ ∃ name, .commandExecuted spot name ∈ m.reports := by
  unfold started
  rw [List.mem_filterMap]
  constructor
  · rintro ⟨event, hmem, h⟩
    split at h
    · cases h
      exact ⟨_, hmem⟩
    · cases h
  · rintro ⟨name, hmem⟩
    exact ⟨_, hmem, rfl⟩

theorem Move.passed?_eq_some : m.passed? = some spot ↔ m.before.cursor.skipping = true ∧
    ∃ name rest, m.reports = .commandExecuted spot name :: rest := by
  unfold passed?
  constructor
  · intro h
    split at h
    · rename_i hskip hreports
      cases h
      exact ⟨hskip, _, _, hreports⟩
    · cases h
  · rintro ⟨hskip, name, rest, hreports⟩
    rw [hskip, hreports]

/-- What a move reports if it goes on after some reports: no other starts. -/
theorem Sequel.reports {u : Playback} {before : List Event} (h : Sequel u q)
    (hu : u.scene.events = p.scene.events ++ before) :
    ∃ told, Move.reports ⟨p, q⟩ = before ++ told ∧
      ∀ spot name, .commandExecuted spot name ∉ told := by
  obtain ⟨told, htold, hnone⟩ := h.events
  refine ⟨told, ?_, hnone⟩
  unfold Move.reports
  rw [htold, hu, List.append_assoc, List.drop_left]

theorem Sequel.started {u : Playback} (h : Sequel u q) (hu : u.scene.events = p.scene.events) :
    spot ∉ Move.started ⟨p, q⟩ := by
  have hevents : u.scene.events = p.scene.events ++ [] := hu.trans (List.append_nil _).symm
  obtain ⟨told, htold, hnone⟩ := h.reports hevents
  intro hspot
  obtain ⟨name, hmem⟩ := Move.mem_started.1 hspot
  rw [htold] at hmem
  exact hnone spot name hmem

/-- Whether the start of a command ends skipping, for what was played before. -/
def endsSkip (env : Env) (p : Playback) (played : Played) (spot : Spot) : Bool :=
  p.cursor.skipping && !played.isPlayed spot.script spot.index && p.player.fastForward.isNone &&
    (p.services.preferences.map (·.current.skipMode)).getD env.config.skipMode = .readOnly

theorem trackRead_eq (env : Env) (spot : Spot) {played : Played}
    (hp : p.services.played = some played) :
    p.trackRead env spot =
      if p.endsSkip env played spot then
        (p.withServices { p.services with
          played := some (played.mark spot.script spot.index) }).setSkip false
      else p.withServices { p.services with
        played := some (played.mark spot.script spot.index) } := by
  unfold trackRead
  rw [hp]
  rfl

/-- The start of a command marks it as played and is reported, after the end of skipping if it ends
that. -/
theorem reported_tells (env : Env) (p : Playback) (spot : Spot) (name : String) {played : Played}
    (hp : p.services.played = some played) :
    (p.reported env spot name).services.played = some (played.mark spot.script spot.index) ∧
      (p.reported env spot name).scene.events = p.scene.events ++
        ((if p.endsSkip env played spot then [.skipChanged false] else []) ++
          [.commandExecuted spot name]) ∧
      (p.endsSkip env played spot = true →
        (p.reported env spot name).cursor.skipping = false) := by
  obtain ⟨q, hq⟩ : ∃ q, q = p.withCursor { p.cursor with played := p.cursor.played + 1 } := ⟨_, rfl⟩
  have hqp : q.services.played = some played := by
    rw [hq]
    exact hp
  have hends : q.endsSkip env played spot = p.endsSkip env played spot := by
    rw [hq]
    rfl
  have hevents : q.scene.events = p.scene.events := by
    rw [hq]
    rfl
  obtain ⟨r, hr⟩ : ∃ r, r = q.withServices { q.services with
      played := some (played.mark spot.script spot.index) } := ⟨_, rfl⟩
  have hrp : r.services.played = some (played.mark spot.script spot.index) := by rw [hr]; rfl
  have hrevents : r.scene.events = p.scene.events := by rw [hr]; exact hevents
  unfold reported
  rw [← hq, trackRead_eq env spot hqp, ← hr, hends]
  by_cases hskip : p.endsSkip env played spot = true
  · have hon : r.cursor.skipping = true := by
      rw [hr, hq]
      unfold endsSkip at hskip
      simp only [Bool.and_eq_true] at hskip
      exact hskip.1.1.1
    rw [if_pos hskip, if_pos hskip]
    unfold setSkip
    rw [if_neg (by rw [hon]; decide)]
    refine ⟨hrp, ?_, fun _ => rfl⟩
    show ((r.scene.emit (.skipChanged false)).emit (.commandExecuted spot name)).events = _
    rw [Scene.events_emit, Scene.events_emit, hrevents, List.append_assoc]
  · rw [if_neg hskip, if_neg hskip]
    refine ⟨hrp, ?_, fun h => absurd h hskip⟩
    show (r.scene.emit (.commandExecuted spot name)).events = _
    rw [Scene.events_emit, hrevents]
    rfl

/-- How a step starts a command. -/
theorem Step.starts (h : Step env p q) {played : Played} (hplayed : p.services.played = some played)
    (hspot : spot ∈ Move.started ⟨p, q⟩) :
    ∃ name, Sequel (p.entering.reported env spot name) q ∧ ∃ told, Move.reports ⟨p, q⟩ =
      (if p.entering.endsSkip env played spot then [.skipChanged false] else []) ++
        .commandExecuted spot name :: told := by
  cases h.deed with
  | rests h => exact absurd hspot (h.started rfl)
  | drops ha h => exact absurd hspot (h.started rfl)
  | works delta hd ha hc h => exact absurd hspot (h.started rfl)
  | @starts d i c hd hi hc h =>
    obtain ⟨-, hevents, -⟩ := reported_tells env p.entering ⟨d.name, i⟩ c.name hplayed
    obtain ⟨told, htold, hnone⟩ := h.reports (p := p) hevents
    rw [List.append_assoc] at htold
    obtain ⟨name, hmem⟩ := Move.mem_started.1 hspot
    have hsame : spot = ⟨d.name, i⟩ := by
      rw [htold] at hmem
      rcases List.mem_append.1 hmem with hmem | hmem
      · split at hmem <;> simp at hmem
      · rcases List.mem_cons.1 hmem with hmem | hmem
        · exact (Event.commandExecuted.inj hmem).1
        · exact absurd hmem (hnone spot name)
    subst hsame
    exact ⟨c.name, h, told, htold⟩

/-- A command that is started while skip is on is passed if skip is still on after the move. -/
theorem Step.passed?_eq_some (h : Step env p q) {played : Played}
    (hplayed : p.services.played = some played) (hspot : spot ∈ Move.started ⟨p, q⟩)
    (hp : p.cursor.skipping = true) (hq : q.cursor.skipping = true) :
    Move.passed? ⟨p, q⟩ = some spot := by
  obtain ⟨name, hseq, told, hreports⟩ := h.starts hplayed hspot
  obtain ⟨-, -, hoff⟩ := reported_tells env p.entering spot name hplayed
  have hends : p.entering.endsSkip env played spot ≠ true := by
    intro hends
    have hon := (hseq.skipping hq).symm.trans (hoff hends)
    cases hon
  rw [if_neg hends] at hreports
  exact Move.passed?_eq_some.2 ⟨hp, name, told, hreports⟩

/-- A command that is passed in skipping over what was read, outside of a run forward, was marked as
played. -/
theorem Step.passed (h : Step env p q) (hp : p.player.fastForward = none)
    (hmode : p.services.preferences.map (·.current.skipMode) = some .readOnly) {played : Played}
    (hplayed : p.services.played = some played) (hspot : Move.passed? ⟨p, q⟩ = some spot) :
    played.isPlayed spot.script spot.index = true := by
  obtain ⟨hskip, name, rest, hfirst⟩ := Move.passed?_eq_some.1 hspot
  have hstarted : spot ∈ Move.started ⟨p, q⟩ :=
    Move.mem_started.2 ⟨name, hfirst ▸ List.mem_cons_self⟩
  obtain ⟨name', -, told, hreports⟩ := h.starts hplayed hstarted
  have hends : p.entering.endsSkip env played spot ≠ true := by
    intro hends
    rw [if_pos hends, hfirst] at hreports
    cases hreports
  by_contra hnot
  refine hends ?_
  have hnot : played.isPlayed spot.script spot.index = false := Bool.eq_false_iff.2 hnot
  have hskip : p.cursor.skipping = true := hskip
  unfold endsSkip
  show (p.cursor.skipping && !played.isPlayed spot.script spot.index &&
    p.player.fastForward.isNone &&
    decide ((p.services.preferences.map (·.current.skipMode)).getD env.config.skipMode =
      .readOnly)) = true
  rw [hskip, hnot, hp, hmode]
  rfl

/-- Every command that was marked as played was started in one of some moves. -/
def ReadIn : List Move → ServiceSet → Prop :=
  Traced (·.played) (fun played spot => played.isPlayed spot.script spot.index = true)
    fun g (spot : Spot) => spot ∈ g.started

/-- What a step marks as played it starts. -/
theorem Step.readIn (h : Step env p q)
    (ha : ∀ a, p.player.active = some a → a.task.Respects (·.played))
    (hp : ReadIn H p.services) : ReadIn (H ++ [⟨p, q⟩]) q.services := by
  have hkeep : ∀ {s : ServiceSet}, q.services = s → s.played = p.services.played →
      ReadIn (H ++ [⟨p, q⟩]) q.services := fun hq hs =>
    (hp.more (List.subset_append_left _ _)).congr (hq ▸ hs)
  cases h.deed with
  | rests h => exact hkeep h.services rfl
  | @drops a hactive h => exact hkeep h.services ((ha a hactive).cancel p.services)
  | @works d a c delta hd hactive hc h =>
    exact hkeep h.services ((ha a hactive).played_step _ p.services)
  | @starts d i c hd hi hc h =>
    obtain ⟨played, hplayed, hall⟩ := hp
    obtain ⟨hmarked, hevents, -⟩ := reported_tells env p.entering ⟨d.name, i⟩ c.name hplayed
    obtain ⟨told, htold, -⟩ := h.reports (p := p) hevents
    have hstarted : (⟨d.name, i⟩ : Spot) ∈ Move.started ⟨p, q⟩ :=
      Move.mem_started.2 ⟨c.name, htold ▸ by simp⟩
    refine ⟨_, (congrArg ServiceSet.played h.services).trans hmarked, fun spot hspot => ?_⟩
    rcases played.isPlayed_mark ⟨d.name, i⟩ spot hspot with rfl | hspot
    · exact ⟨_, List.mem_append_right _ List.mem_cons_self, hstarted⟩
    · obtain ⟨g, hg, hstarted⟩ := hall spot hspot
      exact ⟨g, List.mem_append_left _ hg, hstarted⟩

end Playback

open Playback (Move)

/-- The moves that were made account for all that is marked as played, if the commands of the host
leave it alone. -/
theorem ledger_played : Ledger .played (Task.Respects (·.played)) Playback.ReadIn where
  whole := trivial
  builtin _ ht hhost := absurd hhost ht
  stems h ht := ht.stems h
  present := by
    rintro H s ⟨played, hp : s.played = some played, -⟩
    unfold ServiceSet.keys
    rw [hp]
    simp
  congr hs h := h.congr hs
  more hK h := h.more hK
  reset := by
    rintro H s ⟨played, hp : s.played = some played, -⟩
    refine ⟨.empty, ?_, fun spot hspot => (nomatch hspot)⟩
    show s.played.map _ = _
    rw [hp]
    rfl
  cancel ht h := h.congr (ht.cancel _)
  aside ht _ h := h.congr (ht.played_step _ _)
  move h ha hp := h.readIn ha hp

namespace Engine

variable {l earlier later : List Move} {e : Engine} {m : Move} {spot : Spot}

/-- A command that is passed in skipping over what was read was started before at its place, in the
same revision if the script had no other when its commands were started. -/
theorem Chronicle.passedRead (h : Chronicle (Task.Respects (·.played)) .played l e)
    (hl : l = earlier ++ m :: later) (hspot : m.passed? = some spot)
    (hforward : m.before.player.fastForward = none)
    (hmode : m.before.services.preferences.map (·.current.skipMode) = some .readOnly) :
    ∃ g ∈ earlier, spot ∈ g.started ∧
      ((∀ k ∈ earlier, ∀ s ∈ k.started, s.script = spot.script →
        k.before.cursor.revision = m.before.cursor.revision) →
        g.before.cursor.revision = m.before.cursor.revision) := by
  obtain ⟨-, htold⟩ := h.bears ledger_played fun H preferences host =>
    ⟨.empty, rfl, fun spot hspot => (nomatch hspot)⟩
  obtain ⟨env, hsited, hstep, hbears⟩ := htold earlier m later hl
  obtain ⟨played, hplayed, hread⟩ := hbears.services
  obtain ⟨g, hg, hstarted⟩ := hread spot (hstep.passed hforward hmode hplayed hspot)
  exact ⟨g, hg, hstarted, fun hsame => hsame g hg spot hstarted rfl⟩

/-- A script that is played twice, the second time with skip on. -/
def tellAgain : List Operation :=
  [.loadScript "s" "@print one\n@wait i\n", .playFrom "s" 0, .input (.tick 0), .playFrom "s" 0,
    .input (.skip true), .input (.tick 0)]

theorem passedRead_tellAgain : ∃ l e earlier m later,
    Chronicle (Task.Respects (·.played)) .played l e ∧ l = earlier ++ m :: later ∧
      m.passed? = some ⟨"s", 0⟩ ∧ m.before.player.fastForward = none ∧
      m.before.services.preferences.map (·.current.skipMode) = some .readOnly ∧
      (∀ g ∈ earlier, ∀ s ∈ g.started, s.script = "s" →
        g.before.cursor.revision = m.before.cursor.revision) ∧
      ∃ g ∈ earlier, (⟨"s", 0⟩ : Spot) ∈ g.started ∧
        g.before.cursor.revision = m.before.cursor.revision := by
  have hrun : ((build {} {}).toOption.any fun e => (e.movesAll tellAgain)[4]?.any fun m =>
      m.passed? = some ⟨"s", 0⟩ ∧ m.before.player.fastForward = none ∧
        m.before.services.preferences.map (·.current.skipMode) = some .readOnly ∧
        ((e.movesAll tellAgain).take 4).all fun g =>
          g.before.cursor.revision = m.before.cursor.revision) = true := by
    decide +kernel
  obtain ⟨e, he, hrun⟩ := (Option.any_eq_true _ _).1 hrun
  obtain ⟨m, hm, hcheck⟩ := (Option.any_eq_true _ _).1 hrun
  obtain ⟨hpassed, hforward, hmode, hall⟩ := of_decide_eq_true hcheck
  have h : Chronicle (Task.Respects (·.played)) .played (e.movesAll tellAgain)
      (e.performAll tellAgain) := chronicle_of_trusts (eq_ok_of_toOption he) rfl
  have hsame : ∀ g ∈ (e.movesAll tellAgain).take 4, ∀ s ∈ g.started, s.script = "s" →
      g.before.cursor.revision = m.before.cursor.revision := fun g hg _ _ _ =>
    of_decide_eq_true (List.all_eq_true.1 hall g hg)
  obtain ⟨g, hg, hstarted, hrevision⟩ := h.passedRead (split_at hm) hpassed hforward hmode
  exact ⟨_, _, _, m, _, h, split_at hm, hpassed, hforward, hmode, hsame, g, hg, hstarted,
    hrevision hsame⟩

/-- Another script under the same name is played the second time. -/
def tellOther : List Operation :=
  [.loadScript "s" "@print one\n@wait i\n", .playFrom "s" 0, .input (.tick 0),
    .loadScript "s" "@print other\n@wait i\n", .playFrom "s" 0, .input (.skip true),
    .input (.tick 0)]

/-- The content in its place is taken for read. -/
theorem passedRead_tellOther : ∃ l e earlier m later,
    Chronicle (Task.Respects (·.played)) .played l e ∧ l = earlier ++ m :: later ∧
      m.passed? = some ⟨"s", 0⟩ ∧ m.before.player.fastForward = none ∧
      m.before.services.preferences.map (·.current.skipMode) = some .readOnly ∧
      ¬∃ g ∈ earlier, (⟨"s", 0⟩ : Spot) ∈ g.started ∧
        g.before.cursor.revision = m.before.cursor.revision := by
  have hrun : ((build {} {}).toOption.any fun e => (e.movesAll tellOther)[4]?.any fun m =>
      m.passed? = some ⟨"s", 0⟩ ∧ m.before.player.fastForward = none ∧
        m.before.services.preferences.map (·.current.skipMode) = some .readOnly ∧
        ((e.movesAll tellOther).take 4).all fun g =>
          g.before.cursor.revision ≠ m.before.cursor.revision) = true := by
    decide +kernel
  obtain ⟨e, he, hrun⟩ := (Option.any_eq_true _ _).1 hrun
  obtain ⟨m, hm, hcheck⟩ := (Option.any_eq_true _ _).1 hrun
  obtain ⟨hpassed, hforward, hmode, hall⟩ := of_decide_eq_true hcheck
  have h : Chronicle (Task.Respects (·.played)) .played (e.movesAll tellOther)
      (e.performAll tellOther) := chronicle_of_trusts (eq_ok_of_toOption he) rfl
  refine ⟨_, _, _, m, _, h, split_at hm, hpassed, hforward, hmode, ?_⟩
  rintro ⟨g, hg, -, hrevision⟩
  exact of_decide_eq_true (List.all_eq_true.1 hall g hg) hrevision

end Engine

end Playhead
