import Playhead.Proofs.Engine.Calm
import Playhead.Proofs.Motion.Forward
import Playhead.Proofs.Script.Lines

/-!
Where a rewind to a line leads.

A line stands for the first command on it or after it. A rewind that says it got there is at that
command, on all of its ways: it was there before, it went back to a snapshot, or it played forward.
-/

namespace Playhead

namespace Engine

variable {e e' : Engine} {d : Document} {n index position : Nat}

/-- A rewind goes back to snapshots of the script that plays only. -/
theorem exists_of_rewindPosition? {script : String}
    (h : e.rewindPosition? script index = some position) :
    ∃ x, e.stack.get? position = some x ∧ x.spot.script = script := by
  unfold rewindPosition? at h
  dsimp only at h
  split at h
  · rename_i hfound
    cases h
    obtain ⟨x, hx, hspot⟩ := StateManager.exists_of_findWhere hfound
    exact ⟨x, hx, congrArg Spot.script (of_decide_eq_true hspot)⟩
  · split at h
    · rename_i hfound
      cases h
      obtain ⟨x, hx, hspot⟩ := StateManager.exists_of_findWhere hfound
      exact ⟨x, hx, of_decide_eq_true (Bool.and_eq_true_iff.1 hspot).1⟩
    · cases h

/-- A rollback that is completed leads into the script of the snapshot. -/
theorem document_of_rollbackToPosition (he : e.Read) {x : Snapshot} {outcome : RollbackOutcome}
    (hx : e.stack.get? position = some x)
    (h : e.rollbackToPosition position = (e', .ok outcome)) (hc : outcome.isCompleted = true) :
    ∃ d, e'.player.document = some d ∧ d.name = x.spot.script := by
  unfold rollbackToPosition at h
  simp only [hx] at h
  have hload : ∀ d, (e.loadDocument x.spot.script).2 = .ok d → d.name = x.spot.script := by
    intro d hd
    unfold loadDocument at hd
    cases hload : e.library.load e.source x.spot.script with
    | error err =>
      rw [hload] at hd
      cases hd
    | ok r =>
      rw [hload] at hd
      cases hd
      have hl : e.library.Sound e.source.registry := he.scripts.library
      exact (hl.load he.registry hload).2.1
  generalize e.loadDocument x.spot.script = r at h hload
  obtain ⟨u, err | d⟩ := r
  · cases h
  · dsimp only at h
    split at h
    · cases h
      cases hc
    · unfold restoreSnapshot at h
      dsimp only at h
      generalize StateManager.restore _ x = r at h
      obtain ⟨s, err | _⟩ := r
      · cases h
      · refine ⟨d, ?_, hload d rfl⟩
        rw [← (Prod.mk.inj h).1]
        exact congrArg Bearings.document
          (Playback.bearings_restorePosition _ d x.spot.index x.played x.waiting)

theorem spot_of_playForward (he : Playback.Steps e.env e.playback)
    (hd : e.player.document = some d) (h : e.playForward index = (e', .ok true)) :
    e'.cursor.spot? = some ⟨d.name, index⟩ := by
  unfold playForward at h
  generalize hplay : e.playback.fastForward e.env index = r at h
  obtain ⟨p, err | reached⟩ := r
  · cases h
  · cases h
    exact Playback.spot_of_fastForward he hd hplay

theorem spot_of_rewindWithin (he : Playback.Steps e.env e.playback) (hr : e.Read)
    (hd : e.player.document = some d) {current : Nat}
    (h : e.rewindWithin d current index = (e', .ok true)) :
    e'.cursor.spot? = some ⟨d.name, index⟩ := by
  unfold rewindWithin at h
  split at h
  · exact spot_of_playForward he hd h
  · split at h
    · cases h
    · rename_i position hposition
      obtain ⟨x, hx, hscript⟩ := exists_of_rewindPosition? hposition
      have hturns := rollbackToPosition_turns (w := .none) hr position
      have hdocument : ∀ u outcome, e.rollbackToPosition position = (u, .ok outcome) →
          outcome.isCompleted = true → ∃ d, u.player.document = some d ∧ d.name = x.spot.script :=
        fun _ _ => document_of_rollbackToPosition hr hx
      generalize e.rollbackToPosition position = r at h hturns hdocument
      obtain ⟨u, err | outcome⟩ := r
      · cases h
      · dsimp only at h
        cases hc : outcome.isCompleted with
        | false =>
          rw [hc] at h
          cases h
        | true =>
          rw [hc] at h
          obtain ⟨d', hd', hname⟩ := hdocument u outcome rfl hc
          have hread := hr.turns hturns
          have hu : Playback.Steps u.env u.playback :=
            ⟨hread.registry, hread.scripts, he.placed.turns hturns.turns⟩
          rw [← hscript, ← hname]
          split at h
          · cases h
          split at h
          · rename_i hindex
            cases h
            unfold Cursor.spot?
            rw [hindex, ← (hu.placed.script d' hd').1]
            rfl
          · exact spot_of_playForward hu hd' h

/-- A rewind that says it got to a command has. -/
theorem spot_of_rewindToIndex (he : e.Reachable) (hd : e.player.document = some d)
    (hlt : index < d.size) (h : e.rewindToIndex d index = (e', .ok true)) :
    e'.cursor.spot? = some ⟨d.name, index⟩ := by
  unfold rewindToIndex at h
  dsimp only at h
  split at h
  · rename_i hhere
    obtain ⟨rfl, -⟩ := Prod.mk.inj h
    have hindex : index = e.cursor.index.getD d.size :=
      of_decide_eq_true (Bool.and_eq_true_iff.1 hhere).1
    cases hi : e.cursor.index with
    | none =>
      rw [hi] at hindex
      exact absurd hindex hlt.ne
    | some i =>
      rw [hi] at hindex
      unfold Cursor.spot?
      rw [hi, (he.current.script d hd).1.symm, hindex]
      rfl
  · split at h
    · cases h
    · split at h
      · cases h
      · rename_i hwithin
        cases h
        exact spot_of_rewindWithin he.steps he.read hd hwithin
      · split at h
        · cases h
        · split at h <;> cases h

/-- A rewind stays with the revision of the script that plays, if that is the one that is held. -/
theorem revision_of_rewindTo (he : e.Reachable) (hd : e.player.document = some d)
    (hheld : e.cursor.index = none →
      ∃ d', e.library.get? d.name = some d' ∧ d'.revision = d.revision) {target : RewindTarget}
    (h : e.rewindTo target = (e', .ok true))
    (hspot : e'.cursor.spot? = some ⟨d.name, index⟩) : e'.cursor.revision = d.revision := by
  have hend : e' = (e.rewindTo target).1 := (congrArg Prod.fst h).symm
  have hcurrent : e'.bearings.Current := hend ▸ (he.perform (.rewind target)).current
  have hturns : Turns .none e e' := hend ▸ rewindTo_turns he.read target
  obtain ⟨d₀, hd₀, hsame⟩ : ∃ d', e.library.get? d.name = some d' ∧ d'.revision = d.revision := by
    cases hi : e.cursor.index with
    | none => exact hheld hi
    | some i => exact he.current.held d i hd hi
  obtain ⟨i, hi, hspot⟩ := Option.map_eq_some_iff.1 hspot
  have hscript : e'.cursor.script = d.name := congrArg Spot.script hspot
  obtain ⟨d', hd'⟩ : ∃ d', e'.player.document = some d' := by
    refine Option.ne_none_iff_exists'.1 fun hnone => ?_
    cases (hcurrent.idle hnone).symm.trans hi
  obtain ⟨hname, hrevision⟩ := hcurrent.script d' hd'
  obtain ⟨d'', hd'', hlast⟩ := hcurrent.held d' i hd' hi
  have hkept : e'.library.get? d.name = some d₀ := hturns.turns.held id hd₀
  rw [show d'.name = d.name from hname.symm.trans hscript] at hd''
  cases hkept.symm.trans hd''
  exact hrevision.trans (hlast.symm.trans hsame)

theorem Reachable.parsed (he : e.Reachable) : e.bearings.Parsed e.registry := by
  refine (he.keeps (I := Bearings.Parsed) (fun e he => ⟨fun name d hd => ?_, fun d hd => ?_⟩)
    fun _ _ _ hturn hb => hb.turn hturn).2
  · cases (he.library name).symm.trans hd
  · cases he.document.symm.trans hd

/-- A rewind to a line that has commands is at the first one on it if it says that it got there.
Where playback is over, the script must be held in the same revision still. Lines without commands
are taken for the next line that has one; behind the last one there is nowhere to go, and nothing
changes. -/
theorem rewindTo_line (he : e.Reachable) (hd : e.player.document = some d) (n : Nat) :
    ((∀ k, n ≤ k → ¬d.Bears k) → e.rewindTo (.line n) = (e, .ok false)) ∧
    (∀ m, n ≤ m → d.Bears m → (∀ k, n ≤ k → k < m → ¬d.Bears k) →
      e.rewindTo (.line n) = e.rewindTo (.line m)) ∧
    (d.Bears n →
      (e.cursor.index = none →
        ∃ d', e.library.get? d.name = some d' ∧ d'.revision = d.revision) →
      ∀ e', e.rewindTo (.line n) = (e', .ok true) → ∃ i, d.Begins n i ∧
        e'.cursor.spot? = some ⟨d.name, i⟩ ∧ e'.cursor.revision = d.revision) := by
  have hparsed := he.parsed.document d hd
  refine ⟨fun hnone => ?_, fun m hle hm hnone => ?_, fun hn hheld e' h => ?_⟩
  · unfold rewindTo
    rw [hd]
    simp only [hparsed.indexForLine?_eq_none hnone]
  · unfold rewindTo
    rw [hd]
    simp only [hparsed.indexForLine?_eq hle hm hnone]
  · obtain ⟨i, hi, hbegins⟩ := hparsed.exists_begins hn
    obtain ⟨c, hc, -⟩ := hbegins.1
    have hrewind : e.rewindTo (.line n) = e.rewindToIndex d i := by
      unfold rewindTo
      rw [hd]
      simp only [hi]
    have hspot : e'.cursor.spot? = some ⟨d.name, i⟩ :=
      spot_of_rewindToIndex he hd (Array.getElem?_eq_some_iff.1 hc).1 (hrewind.symm.trans h)
    exact ⟨i, hbegins, hspot, revision_of_rewindTo he hd hheld h hspot⟩

/-- A comment and an empty line between two lines that are told. -/
def annotated : String := "first\n; a note\n\nlast\n"

/-- A run after which the first line is next. -/
def beforeNote : List Operation :=
  [.loadScript "tale" annotated, .playFrom "tale" 0]

/-- The lines between the two that are told are taken for the second of them. -/
theorem rewindTo_line_annotated : ∃ (e : Engine) (d : Document) (e' : Engine), e.Reachable ∧
    e.player.document = some d ∧ d.commands.toList.map (·.spot.line) = [1, 4] ∧
    e.rewindTo (.line 4) = (e', .ok true) ∧ e.rewindTo (.line 2) = e.rewindTo (.line 4) ∧
    e.rewindTo (.line 5) = (e, .ok false) ∧ ∃ i, d.Begins 4 i ∧
      e'.cursor.spot? = some ⟨d.name, i⟩ ∧ e'.cursor.revision = d.revision := by
  have hrun : ((build {} {}).toOption.any fun e₀ =>
      let e := e₀.performAll beforeNote
      e.player.document.any (fun d => d.commands.toList.map (·.spot.line) = [1, 4]) ∧
        e.cursor.index = some 0 ∧ (e.rewindTo (.line 4)).2.toOption = some true) = true := by
    decide +kernel
  obtain ⟨e₀, he₀, hcheck⟩ := (Option.any_eq_true _ _).1 hrun
  obtain ⟨hlines, hindex, hreached⟩ := of_decide_eq_true hcheck
  obtain ⟨d, hd, hlines⟩ := (Option.any_eq_true _ _).1 hlines
  have hlines := of_decide_eq_true hlines
  have hreach := (Reachable.build (eq_ok_of_toOption he₀)).performAll beforeNote
  have hbears : ∀ k, d.Bears k ↔ k = 1 ∨ k = 4 := fun k => by
    rw [Document.bears_iff_mem, hlines]
    simp
  have hrewind : (e₀.performAll beforeNote).rewindTo (.line 4) =
      (((e₀.performAll beforeNote).rewindTo (.line 4)).1, .ok true) :=
    Prod.ext rfl (eq_ok_of_toOption hreached)
  refine ⟨_, d, _, hreach, hd, hlines, hrewind, ?_, ?_, ?_⟩
  · refine (rewindTo_line hreach hd 2).2.1 4 (by decide) ((hbears 4).2 (.inr rfl))
      fun k hk hlt => ?_
    rw [hbears]
    omega
  · refine (rewindTo_line hreach hd 5).1 fun k hk => ?_
    rw [hbears]
    omega
  · refine (rewindTo_line hreach hd 4).2.2 ((hbears 4).2 (.inr rfl)) (fun hnone => ?_) _ hrewind
    cases hindex.symm.trans hnone

/-- A script that a way leads out of, and one that leads back into it. -/
def road : String := "One\nTwo\n@goto inn\n"

def inn : String := "Inside\n@goto road\n"

/-- The first script with its lines farther apart. -/
def newRoad : String := "One\n\n\nTwo\nThree\n"

/-- A run into the second script and back into the first one, which was read anew meanwhile and is
read anew once more then, as it was at first. -/
def roadworks : List Operation :=
  [.loadScript "road" road, .loadScript "inn" inn, .playFrom "road" 0, .input (.tick 0),
    .input .goOn, .input (.tick 0), .input .goOn, .input (.tick 0), .loadScript "road" newRoad,
    .input .goOn, .input (.tick 0), .loadScript "road" road]

/-- A rewind to the line of a comment moves on to the next command and says that it got there. One
to a line of a script that is no longer held goes to another line of the script in its place. -/
theorem rewindTo_line_strays : ∃ e₀, build {} {} = .ok e₀ ∧
    (∃ (d : Document) (e' : Engine), (e₀.performAll beforeNote).player.document = some d ∧
      ¬d.Bears 2 ∧ (e₀.performAll beforeNote).rewindTo (.line 2) = (e', .ok true) ∧
      (e₀.performAll beforeNote).cursor.index = some 0 ∧ e'.cursor.index = some 1) ∧
    ∃ (d d' : Document) (e' : Engine) (i : Nat) (c : Command),
      (e₀.performAll roadworks).player.document = some d ∧ d.Bears 5 ∧
      (e₀.performAll roadworks).rewindTo (.line 5) = (e', .ok true) ∧
      e'.player.document = some d' ∧ e'.cursor.index = some i ∧ d'.command? i = some c ∧
      c.spot.line = 3 := by
  have hrun : ((build {} {}).toOption.any fun e₀ =>
      let e := e₀.performAll beforeNote
      let r := e.rewindTo (.line 2)
      let u := e₀.performAll roadworks
      let t := u.rewindTo (.line 5)
      (e.player.document.any (fun d => 2 ∉ d.commands.toList.map (·.spot.line)) ∧
        r.2.toOption = some true ∧ e.cursor.index = some 0 ∧ r.1.cursor.index = some 1) ∧
      u.player.document.any (fun d => 5 ∈ d.commands.toList.map (·.spot.line)) ∧
        t.2.toOption = some true ∧ t.1.player.document.any (fun d =>
          t.1.cursor.index.any fun i => (d.command? i).any fun c => c.spot.line = 3)) = true := by
    decide +kernel
  obtain ⟨e₀, he₀, hcheck⟩ := (Option.any_eq_true _ _).1 hrun
  obtain ⟨⟨hnote, hmoved, hfirst, hnext⟩, hline, hback, hplace⟩ := of_decide_eq_true hcheck
  obtain ⟨d, hd, hnote⟩ := (Option.any_eq_true _ _).1 hnote
  obtain ⟨d₁, hd₁, hline⟩ := (Option.any_eq_true _ _).1 hline
  obtain ⟨d', hd', hplace⟩ := (Option.any_eq_true _ _).1 hplace
  obtain ⟨i, hi, hplace⟩ := (Option.any_eq_true _ _).1 hplace
  obtain ⟨c, hc, hplace⟩ := (Option.any_eq_true _ _).1 hplace
  refine ⟨e₀, eq_ok_of_toOption he₀, ⟨d, _, hd, ?_, Prod.ext rfl (eq_ok_of_toOption hmoved),
    hfirst, hnext⟩, d₁, d', _, i, c, hd₁, ?_, Prod.ext rfl (eq_ok_of_toOption hback), hd', hi, hc,
    of_decide_eq_true hplace⟩
  · rw [Document.bears_iff_mem]
    exact of_decide_eq_true hnote
  · rw [Document.bears_iff_mem]
    exact of_decide_eq_true hline

end Engine

end Playhead
