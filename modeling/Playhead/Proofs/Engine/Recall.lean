import Playhead.Proofs.Engine.Replay
import Playhead.Proofs.Standing.Offers

/-!
Options that a script registers are presented before the next command that is no `choice` and
before the script ends, and they are presented again after a rollback.

A rollback presents the options of its snapshot at once. Where the snapshot was taken they were
presented only if no other `choice` followed. So a snapshot inside a group of choices brings back
the part of the group that came before it.
-/

namespace Playhead.Engine

variable {e : Engine} {l : List Input}

/-- A script that is played goes on to present its options. Unless one of its groups of choices is
open, that is before another command than `choice` is started and before the end of the script, and
all options that are pending then are listed. -/
theorem presents_before_going_on (he : e.Sound) (hpending : e.playback.choicesPending = false)
    (hl : ∀ i ∈ l, ¬i.IsSelect)
    (hb : ∀ spot name, .commandExecuted spot name ∈ e.plotOf l → name ∈ Builtin.names)
    (hclosed : ∀ d, e.Visits l d → d.closesGroups = true) :
    ∃ m, e.plotOf l = m.filterMap Note.event? ∧
      (e.afters l).map ServiceSet.story = m.filterMap Note.after? ∧
      Standing.Offers e.services.story m := by
  obtain ⟨m, hm, -⟩ := takeAll_follows he hl hb
  refine ⟨m, plotOf_eq hm, hm.afters, ?_⟩
  refine hm.leads.offers he.playback.shelf ⟨he.playback.placed, rfl⟩ hm.names he.builtin ?_
    (Standing.choicesPending_eq_false_iff.1 hpending)
  rintro l₁ l₂ u d rfl hu hd
  refine hclosed d ⟨l₁, u, hu, ?_, hd⟩
  rw [plotOf_eq hm, List.filterMap_append]
  exact List.prefix_append _ _

/-- Playing a text comes to no other script. -/
theorem Told.visits {text : String} {d c : Document} (ht : Told text d e) (hc : e.Visits l c) :
    c = d := by
  obtain ⟨m, t, hm, -, hc⟩ := hc
  refine ht.only _ _ (hm.shelved ht.sound.playback.shelf (fun d₀ hd₀ => ?_) hc)
  rw [ht.standing] at hd₀
  cases hd₀
  exact ht.script

/-- Two options in one group. -/
def twoOptions : String := "@choice Left\n@choice Right\nOn.\n"

def leftAndRight : List ChoiceOption := [⟨"Left", none, none, none⟩, ⟨"Right", none, none, none⟩]

/-- Both options of a group are presented in one. -/
theorem presents_before_going_on_twoOptions : ∃ e m, telling twoOptions = some e ∧
    e.plotOf [.tick 0] = m.filterMap Note.event? ∧ Standing.Offers e.services.story m ∧
    Standing.presented m = [leftAndRight] := by
  obtain ⟨d, e, hgroups, hcheck, ht⟩ := exists_told twoOptions
    Document.closesGroups
    (fun e : Engine => e.playback.choicesPending = false ∧ e.plotOf [.tick 0] =
      [.commandExecuted ⟨"tale", 0⟩ "choice", .commandExecuted ⟨"tale", 1⟩ "choice",
        .choicePresented leftAndRight])
    (by decide +kernel) (by decide +kernel)
  obtain ⟨hpending, hevents⟩ := of_decide_eq_true hcheck
  obtain ⟨m, hm, -, hoffers⟩ := presents_before_going_on ht.sound hpending (l := [.tick 0])
    (by simp [Input.IsSelect])
    (by
      intro spot name hn
      rw [hevents] at hn
      simp only [List.mem_cons, List.not_mem_nil, Event.commandExecuted.injEq, or_false,
        reduceCtorEq] at hn
      rcases hn with ⟨-, rfl⟩ | ⟨-, rfl⟩ <;> decide)
    (fun c hc => ht.visits hc ▸ hgroups)
  refine ⟨e, m, ht.telling, hm, hoffers, ?_⟩
  unfold Standing.presented
  rw [← hm, hevents]
  rfl

/-- A group that a `choice` with a condition leaves open. -/
def openGroup : String := "@choice A\n@choice B if:false\n@print hello\n"

/-- Past a `choice` that is left out, playback goes on to the end of the script. The option that is
pending is never presented. -/
theorem goes_on_openGroup : ∃ e, telling openGroup = some e ∧ e.playback.choicesPending = false ∧
    (e.take (.tick 0)).playback.choicesPending = true ∧
    e.plotOf [.tick 0] = [.commandExecuted ⟨"tale", 0⟩ "choice",
      .commandExecuted ⟨"tale", 2⟩ "print", .stopped .endOfScript] := by
  have hrun : ((telling openGroup).any fun e : Engine =>
      e.playback.choicesPending = false ∧ (e.take (.tick 0)).playback.choicesPending = true ∧
        e.plotOf [.tick 0] = [.commandExecuted ⟨"tale", 0⟩ "choice",
          .commandExecuted ⟨"tale", 2⟩ "print", .stopped .endOfScript]) = true := by
    decide +kernel
  obtain ⟨e, he, hcheck⟩ := (Option.any_eq_true _ _).1 hrun
  exact ⟨e, he, of_decide_eq_true hcheck⟩

end Playhead.Engine

namespace Playhead

/-- The options that were pending when a snapshot was taken. -/
def Snapshot.options (x : Snapshot) : List ChoiceOption :=
  (((x.records.get? "choices").bind Choices.ofJson?).map (·.pending)).getD []

/-- The events after so many starts of commands. -/
def Event.sinceStart : Nat → List Event → List Event
  | 0, l => l
  | _ + 1, [] => []
  | n + 1, e :: l => if e.executed?.isSome then sinceStart n l else sinceStart (n + 1) l

theorem Event.sinceStart_append (l : List Event) (spot : Spot) (name : String) (m : List Event) :
    Event.sinceStart ((l.filterMap Event.executed?).length + 1)
      (l ++ .commandExecuted spot name :: m) = m := by
  induction l with
  | nil => simp [sinceStart, executed?]
  | cons e rest ih =>
    rw [List.cons_append, List.filterMap_cons]
    cases he : e.executed? with
    | none =>
      simp only [sinceStart, he]
      exact ih
    | some started =>
      simp only [sinceStart, he, List.length_cons]
      exact ih

namespace Standing

variable {w : Shelf} {s t : Standing} {l : List Note} {x : Snapshot}

/-- What is noted up to where a command is in flight ends with its start. -/
theorem Leads.ends_started (h : s.Leads w l t) (hb : t.busy = true) :
    l = [] ∧ s.busy = true ∨ ∃ k spot name, l = k ++ [.event (.commandExecuted spot name)] := by
  induction h with
  | refl s => exact .inl ⟨rfl, hb⟩
  | @step s t u l m hnext _ ih =>
    rcases ih hb with ⟨rfl, ht⟩ | ⟨k, spot, name, rfl⟩
    · right
      rw [List.append_nil]
      cases moves_of_next hnext with
      | start hd hi hc _ he hr => exact ⟨[], _, _, rfl⟩
      | pass hd hi hc hidle he =>
        exact absurd ((show (s.pass _ _).2.busy = s.busy from rfl).symm.trans ht)
          (by rw [hidle]; exact Bool.false_ne_true)
      | complete hd hi hc _ hr =>
        exact absurd ((busy_finish _ _ _ _ _ _).symm.trans ht) Bool.false_ne_true
    · exact .inr ⟨l ++ k, spot, name, (List.append_assoc _ _ _).symm⟩

/-- What follows the start of a command in flight. -/
theorem Leads.sinceStart (h : s.Leads w l t) (hb : t.busy = true) (m : List Event) :
    Event.sinceStart (executed l).length (l.filterMap Note.event? ++ m) = m := by
  rcases h.ends_started hb with ⟨rfl, -⟩ | ⟨k, spot, name, rfl⟩
  · simp [executed, Event.sinceStart]
  · have hstart := Event.sinceStart_append (k.filterMap Note.event?) spot name m
    rw [executed_append, List.filterMap_append, List.append_assoc, List.length_append]
    exact hstart

/-- A snapshot counts the commands that were started before it, and what follows the last of their
starts begins with the aftermath of its command. -/
theorem Lands.sinceStart (h : s.Lands w l t) (hl : Starts l (· ∈ Builtin.names))
    (hc : ∀ name, s.Current name → name ∈ Builtin.names) :
    ∃ done d i, t.document = some d ∧ t.index = some i ∧
      (∀ n ∈ aftermath w.registry done d i t.services, n ∈ l) ∧
      ∀ m, Event.sinceStart (executed l).length (l.filterMap Note.event? ++ m) =
        (aftermath w.registry done d i t.services).filterMap Note.event? ++ m := by
  obtain ⟨k, u, done, d, i, rfl, hk, hu, hd, hi⟩ := h
  refine ⟨done, d, i, hd, hi, fun n hn => by simp [hn], fun m => ?_⟩
  have hk := (hk.leads (starts_append.1 hl).1 hc).1
  have hnone : executed (.after t.services :: aftermath w.registry done d i t.services) = [] :=
    executed_aftermath w.registry done d i t.services
  rw [executed_append, hnone, List.append_nil, List.filterMap_append, List.append_assoc]
  exact hk.sinceStart hu _

theorem Captured.options (h : t.Captured x) (hc : t.services.choices.isSome)
    (hn : ((t.services.inScope .game).map t.services.idOf).Nodup) :
    x.options = t.services.pendingChoices := by
  obtain ⟨d, i, records, -, -, hr, hx⟩ := h.taken
  have hrecords : x.records = records := by rw [hx]; rfl
  obtain ⟨j, hj, hget⟩ := StateMap.get?_of_collectKeys hr hn .choices
    ((ServiceSet.mem_inScope_game_iff t.services).2.2.1.2 hc)
  obtain ⟨k, hk, rfl⟩ := Option.map_eq_some_iff.1 hj
  unfold Snapshot.options
  rw [hrecords, show records.get? "choices" = _ from hget, Option.bind_some,
    Choices.ofJson?_toJson]
  unfold ServiceSet.pendingChoices
  rw [hk]

/-- Inside a script, options that are pending after a command are presented unless it halts or a
`choice` is next. -/
theorem presented_landing (registry : Registry) (done : Completion) (s : ServiceSet)
    {d : Document} {i : Nat} (hi : i < d.size)
    (h : s.pendingChoices = [] ∨ Playback.addsChoice registry d i = false ∧
      .event (.stopped .command) ∉ aftermath registry done d i s) :
    presented (aftermath registry done d i s) =
      if s.choicesPending then [s.pendingChoices] else [] := by
  unfold aftermath at h ⊢
  rw [if_neg (Nat.not_le.2 hi)] at h ⊢
  rcases h with hnone | ⟨hadds, hgoes⟩
  · rw [choicesPending_eq_false_iff.2 hnone]
    split <;> rfl
  · split
    · rename_i hflow
      rw [if_pos hflow] at hgoes
      exact absurd (List.mem_singleton_self _) hgoes
    · rw [hadds, Bool.not_false, Bool.and_true]
      split <;> rfl

end Standing

namespace Engine

variable {e e' : Engine} {run : List Input} {x : Snapshot}

theorem plot_takeAll (he : e.Sound) {l : List Input} (hl : ∀ i ∈ l, ¬i.IsSelect) :
    (e.takeAll l).playback.plot = e.playback.plot ++ e.plotOf l := by
  obtain ⟨r, hr⟩ := takeAll_grows he.alone hl
  unfold plotOf
  rw [← hr, List.drop_left]

/-- A snapshot that no `choice` follows, of a game in which options may be pending. -/
def Outside (e : Engine) (run : List Input) (x : Snapshot) : Prop :=
  (∀ d c, (e.playback.shelf e.env).script x.spot.script = .ok d →
    d.command? x.spot.index = some c → c.name ≠ "choice") ∧ .stopped .command ∉ e.plotOf run

/-- A rollback to a snapshot that was taken while an engine was driven, and driving on from there,
presents the options that were presented after the snapshot was taken, for as far as both go. That
holds of snapshots with no option pending, and of those before another command than `choice` if
the run did not halt. The variables that outlive the game are those of the run. -/
theorem rollback_presents (he : e.Sound) (hf : e.services.Faithful)
    (hchoices : e.services.choices.isSome) (hrun : ∀ i ∈ run, ¬i.IsSelect)
    (hb : ∀ spot name, .commandExecuted spot name ∈ e.plotOf run → name ∈ Builtin.names)
    (hstored : ∀ s ∈ e.afters run, s.Storable ∧ s.globals = e.services.globals)
    (hx : x ∈ (e.takeAll run).stack.snapshots) (hnew : ∀ y ∈ e.stack.snapshots, ¬y.Alike x)
    (houtside : x.options = [] ∨ e.Outside run x)
    (he' : e'.Sound) (hplays : e'.player.document ≠ none)
    (hshelf : e'.playback.shelf e'.env = e.playback.shelf e.env)
    (hpeers : e.services.Peers e'.services) (hglobals : e'.services.globals = e.services.globals)
    {position : Nat} (hget : e'.stack.get? position = some x) :
    ∃ e₂, e'.rollback (.position position) = (e₂, .ok (.completed x.spot)) ∧
      ∀ l, (∀ i ∈ l, ¬i.IsSelect) →
        Along
          (((e₂.takeAll l).playback.plot.drop e'.playback.plot.length).filterMap Event.presented?)
          ((Event.sinceStart (x.played - e.cursor.played) (e.plotOf run)).filterMap
            Event.presented?) := by
  obtain ⟨m, hm, -⟩ := takeAll_follows he hrun hb
  rcases hm.retained hx with ⟨y, hy, hyx⟩ | ⟨l₁, t, l₂, rfl, h₁, h₂, ht, hfresh, hlands⟩
  · exact absurd hyx (hnew y hy)
  obtain ⟨hn₁, hn₂⟩ := Standing.starts_append.1 hm.names
  obtain ⟨hdomestic, hkept⟩ := h₁.domestic he.playback.shelf hn₁ he.builtin
    ⟨he.playback.placed, rfl⟩
  have hfirst : e.services.Peers t.services :=
    ⟨hkept.variableStore, hkept.textLog, hkept.choices, hkept.callStack, hkept.host⟩
  obtain ⟨hstorable, hsame⟩ : t.services.Storable ∧ t.services.globals = e.services.globals := by
    have hmem : t.services ∈ (l₁ ++ l₂).filterMap Note.after? :=
      List.mem_filterMap.2 ⟨_, List.mem_append_left l₂ hlands.completed, rfl⟩
    rw [← hm.afters] at hmem
    obtain ⟨s, hs, heq⟩ := List.mem_map.1 hmem
    obtain ⟨hstorable, hsame⟩ := hstored s hs
    rw [← heq]
    exact ⟨⟨hstorable.finite, hstorable.calls⟩, hsame⟩
  obtain ⟨e₂, hrollback, hrestored⟩ := rollback_restores he' hplays hget ht hfresh
    (hshelf ▸ hdomestic) (hfirst.symm.trans hpeers) (hsame.trans hglobals.symm) hstorable
    (hf.peers hpeers)
  refine ⟨e₂, hrollback, fun l hl => ?_⟩
  obtain ⟨done, d, i, hd, hi, haftermath, hsince⟩ := hlands.sinceStart hn₁ he.builtin
  obtain ⟨hscript, hlt⟩ := hdomestic.placed d i hd hi
  obtain ⟨d', i', records, hd', hi', -, hx'⟩ := ht.taken
  cases hd.symm.trans hd'
  cases hi.symm.trans hi'
  -- What the rollback presents stands for what was presented as the snapshot was taken.
  have hpresented := Standing.presented_landing (e.playback.shelf e.env).registry
    done t.services hlt (by
      have hoptions := ht.options (hfirst.choices ▸ hchoices) (hf.peers hfirst).distinct
      refine houtside.imp (hoptions.symm.trans ·) fun ⟨hname, hgoes⟩ => ⟨?_, fun hstop => hgoes ?_⟩
      · obtain ⟨c, hc⟩ : ∃ c, d.command? i = some c := ⟨_, Array.getElem?_eq_getElem hlt⟩
        have hspot : x.spot = ⟨d.name, i⟩ := by rw [hx']; rfl
        rw [Standing.addsChoice_eq (he.playback.shelf.staged _ _ hscript).2 hc]
        rw [hspot] at hname
        exact decide_eq_false (hname d c hscript hc)
      · rw [plotOf_eq hm]
        exact List.mem_filterMap.2 ⟨_, List.mem_append_left l₂ (haftermath _ hstop), rfl⟩)
  have hplayed : x.played - e.cursor.played = (Standing.executed l₁).length := by
    have hxt : x.played = t.played := by rw [hx']; rfl
    rw [hxt, h₁.counted.started]
    exact Nat.add_sub_cancel_left _ _
  have hleads : e₂.playback.standing.Leads (e₂.playback.shelf e₂.env) l₂
      (e.takeAll run).playback.standing := by
    rw [hrestored.standing, hrestored.shelf, hshelf]
    exact h₂
  have halong := (goes_along hrestored.sound hleads hn₂ hl).1.filterMap Event.presented?
  have hdrop : ((e₂.takeAll l).playback.plot.drop e'.playback.plot.length).filterMap
      Event.presented? = (if t.services.choicesPending then [t.services.pendingChoices] else []) ++
        (e₂.plotOf l).filterMap Event.presented? := by
    rw [plot_takeAll hrestored.sound hl, hrestored.plot, List.append_assoc, List.drop_left,
      List.filterMap_append]
    split <;> rfl
  rw [hdrop, plotOf_eq hm, hplayed, List.filterMap_append, hsince, List.filterMap_append]
  unfold Standing.presented at hpresented
  rw [hpresented]
  exact halong.append_left _

/-- Rolling back to the snapshot after a whole group presents the group again. -/
theorem rollback_presents_twoOptions : ∃ (e e₂ : Engine) (x : Snapshot),
    telling twoOptions = some e ∧ (e.takeAll [.tick 0]).stack.get? 1 = some x ∧
    x.options = leftAndRight ∧
    (e.takeAll [.tick 0]).rollback (.position 1) = (e₂, .ok (.completed x.spot)) ∧
    Along ((e₂.playback.plot.drop (e.takeAll [.tick 0]).playback.plot.length).filterMap
      Event.presented?) [leftAndRight] := by
  obtain ⟨d, e, hnames, hcheck, ht⟩ := exists_told twoOptions
    (fun d => d.commands.toList.map (·.name) = ["choice", "choice", "print"])
    (fun e : Engine => e.plotOf [.tick 0] =
        [.commandExecuted ⟨"tale", 0⟩ "choice", .commandExecuted ⟨"tale", 1⟩ "choice",
          .choicePresented leftAndRight] ∧
      (e.afters [.tick 0]).all (·.isBlank) = true ∧
      (e.take (.tick 0)).player.document.isSome = true ∧
      ((e.take (.tick 0)).stack.get? 1).any (fun x =>
        x.spot = ⟨"tale", 2⟩ ∧ x.played = 2 ∧ x.options = leftAndRight) = true ∧
      e.cursor.played = 0)
    (by decide +kernel) (by decide +kernel)
  obtain ⟨hevents, hblank, hplays, hsome, hplayed⟩ := of_decide_eq_true hcheck
  obtain ⟨x, hx, hspot⟩ := (Option.any_eq_true _ _).1 hsome
  obtain ⟨hspot, hat, hoptions⟩ := of_decide_eq_true hspot
  have hselect : ∀ i ∈ [Input.tick 0], ¬i.IsSelect := by simp [Input.IsSelect]
  have hb : ∀ spot name, .commandExecuted spot name ∈ e.plotOf [.tick 0] →
      name ∈ Builtin.names := by
    intro spot name hn
    rw [hevents] at hn
    simp only [List.mem_cons, List.not_mem_nil, Event.commandExecuted.injEq, or_false,
      reduceCtorEq] at hn
    rcases hn with ⟨-, rfl⟩ | ⟨-, rfl⟩ <;> decide
  obtain ⟨m, hm, hs⟩ := takeAll_follows ht.sound hselect hb
  have hstored : ∀ s ∈ e.afters [.tick 0], s.Storable ∧ s.globals = e.services.globals := by
    intro s hmem
    rw [ht.services]
    exact ServiceSet.storable_of_isBlank (List.all_eq_true.1 hblank s hmem)
  have hleads := hm.leads.domestic ht.sound.playback.shelf hm.names ht.sound.builtin
    ⟨ht.sound.playback.placed, rfl⟩
  have hglobals : (e.takeAll [.tick 0]).services.globals = e.services.globals := by
    rcases hm.leads.services_eq with heq | hmem
    · have hsame : (e.takeAll [.tick 0]).playback.standing.services.globals =
          e.playback.standing.services.globals := congrArg ServiceSet.globals heq
      exact hsame
    · rw [← hm.afters] at hmem
      obtain ⟨s, hs, heq⟩ := List.mem_map.1 hmem
      exact (congrArg ServiceSet.globals heq.symm).trans (hstored s hs).2
  have houtside : e.Outside [.tick 0] x := by
    refine ⟨fun d' c hd' hc => ?_, ?_⟩
    · cases ht.only _ _ hd'
      rw [hspot] at hc
      have hname : (d.commands.toList.map (·.name))[2]? = some c.name := by
        rw [List.getElem?_map, Array.getElem?_toList, show d.commands[2]? = some c from hc]
        rfl
      rw [of_decide_eq_true hnames] at hname
      rw [← Option.some.inj hname]
      decide
    · rw [hevents]
      simp
  have hfaithful : e.services.Faithful := by
    rw [ht.services]
    exact ServiceSet.faithful_of_nodup (by decide) (by simp [ServiceSet.builtin])
  obtain ⟨e₂, hrollback, hpresents⟩ := rollback_presents ht.sound hfaithful
    (by rw [ht.services]; rfl) hselect hb hstored (List.mem_of_getElem? hx)
    (by rw [ht.stack]; exact fun y hy => absurd hy List.not_mem_nil) (.inr houtside) hs
    (Option.isSome_iff_ne_none.1 hplays) ((takeAll_env ht.sound hselect).symm ▸ hm.shelf)
    ⟨hleads.2.variableStore, hleads.2.textLog, hleads.2.choices, hleads.2.callStack, hleads.2.host⟩
    hglobals hx
  have hfirst := hpresents [] (by simp)
  rw [hat, hplayed, hevents] at hfirst
  exact ⟨e, e₂, x, ht.telling, hx, hoptions, hrollback, hfirst⟩

/-- After a rollback into a group of choices, only the options before the snapshot are presented. -/
theorem rollback_loses_option : ∃ (e e₂ : Engine) (x : Snapshot), telling twoOptions = some e ∧
    (e.takeAll [.tick 0]).stack.get? 0 = some x ∧
    (e.takeAll [.tick 0]).rollback (.position 0) = (e₂, .ok (.completed x.spot)) ∧
    (Event.sinceStart x.played (e.plotOf [.tick 0])).filterMap Event.presented? =
      [leftAndRight] ∧
    (e₂.playback.plot.drop (e.takeAll [.tick 0]).playback.plot.length).filterMap
      Event.presented? = [[⟨"Left", none, none, none⟩]] := by
  have hrun : ((telling twoOptions).any fun e : Engine =>
      ((e.takeAll [.tick 0]).stack.get? 0).any fun x =>
        ((e.takeAll [.tick 0]).rollback (.position 0)).2 = .ok (.completed x.spot) ∧
        (Event.sinceStart x.played (e.plotOf [.tick 0])).filterMap Event.presented? =
          [leftAndRight] ∧
        ((((e.takeAll [.tick 0]).rollback (.position 0)).1.playback.plot.drop
          (e.takeAll [.tick 0]).playback.plot.length).filterMap Event.presented? =
            [[⟨"Left", none, none, none⟩]])) = true := by
    decide +kernel
  obtain ⟨e, he, hcheck⟩ := (Option.any_eq_true _ _).1 hrun
  obtain ⟨x, hx, hcheck⟩ := (Option.any_eq_true _ _).1 hcheck
  obtain ⟨hrollback, hsince, hafter⟩ := of_decide_eq_true hcheck
  exact ⟨e, _, x, he, hx, Prod.ext rfl hrollback, hsince, hafter⟩

end Engine

end Playhead
