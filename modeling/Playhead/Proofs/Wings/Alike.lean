import Playhead.Proofs.Engine.Rounds
import Playhead.Proofs.Wings.Aside

/-!
A script that never leaves itself plays beside the main script as it plays as the main script.
-/

namespace Playhead

/-- The commands that were started, and the variables and the text log after each that completed. -/
structure Account where
  commands : List (Spot × String)
  after : List (Option VariableStore × Option TextLog)

namespace Account

def of (commands : List (Spot × String)) (after : List ServiceSet) : Account :=
  ⟨commands, after.map fun s => (s.variableStore, s.textLog)⟩

/-- What notes tell. -/
def noted (l : List Note) : Account :=
  of (Standing.executed l) (l.filterMap Note.after?)

/-- One account goes on where another one ends. -/
structure Within (a b : Account) : Prop where
  commands : a.commands <+: b.commands
  after : a.after <+: b.after

theorem within_noted (l m : List Note) : (noted l).Within (noted (l ++ m)) := by
  constructor
  · refine ⟨Standing.executed m, ?_⟩
    exact (Standing.executed_append l m).symm
  · refine ⟨(noted m).after, ?_⟩
    show List.map _ _ ++ List.map _ _ = List.map _ _
    rw [← List.map_append, ← List.filterMap_append]

theorem of_story (commands : List (Spot × String)) (after : List ServiceSet) :
    of commands (after.map ServiceSet.story) = of commands after := by
  unfold of
  rw [List.map_map]
  rfl

end Account

open Account

theorem Standing.Alike.noted_eq {l k : List Note} (h : Standing.Alike l k) :
    noted k = noted l := by
  unfold noted
  rw [← of_story, h.executed, h.after]

namespace Engine

/-- What is told of main playback while an engine is driven. -/
def told (e : Engine) (l : List Input) : Account :=
  .of ((e.plotOf l).filterMap Event.executed?) (e.afters l)

/-- What is told of the transient scripts while time passes. -/
def toldAside (e : Engine) (times : List Nanoseconds) : Account :=
  noted (e.asides times)

/-- Main playback is in a script, and nothing holds it up for good. -/
structure Plays (e : Engine) (d : Document) : Prop where
  sound : e.Sound
  ready : e.Ready
  document : e.player.document = some d

/-- Inputs have brought main playback from where it stood to a standing. -/
structure Paces (e : Engine) (d : Document) (inputs : List Input) (l : List Note) (t : Standing) :
    Prop where
  follows : Playback.Follows e.env e.playback l (e.takeAll inputs).playback (e.afters inputs)
  plays : (e.takeAll inputs).Plays d
  standing : (e.takeAll inputs).playback.standing = t

variable {e : Engine} {d : Document} {inputs inputs' : List Input} {l m : List Note}
  {t u : Standing} {delta : Nat → Nanoseconds}

theorem Plays.stopped_iff (h : e.Plays d) :
    e.status = .stopped ↔ e.playback.standing.index = none := by
  constructor
  · intro hstop
    rcases over_of_stopped hstop with hh | ho | ho
    · exact absurd (h.ready.going.symm.trans hh) Bool.false_ne_true
    · exact absurd (h.document.symm.trans ho) (Option.some_ne_none d)
    · exact ho
  · intro hi
    exact stopped_of_over (fun hnone => Option.some_ne_none d (h.document.symm.trans hnone))
      (.inr hi)

theorem Paces.leads (h : e.Paces d inputs l t) :
    e.playback.standing.Leads (e.playback.shelf e.env) l t :=
  h.standing ▸ h.follows.leads

theorem Paces.told_eq (h : e.Paces d inputs l t) : e.told inputs = noted l := by
  unfold told noted
  rw [plotOf_eq h.follows, ← h.follows.afters, of_story]
  rfl

theorem Paces.append (he : e.Sound) (hi : ∀ i ∈ inputs, ¬i.IsSelect) (h : e.Paces d inputs l t)
    (h' : (e.takeAll inputs).Paces d inputs' m u) : e.Paces d (inputs ++ inputs') (l ++ m) u where
  follows := by
    have hrest := h'.follows
    rw [takeAll_env he hi] at hrest
    rw [takeAll_append, afters_append]
    exact h.follows.trans hrest
  plays := by
    rw [takeAll_append]
    exact h'.plays
  standing := by
    rw [takeAll_append]
    exact h'.standing

section

variable (hd : d.Enclosed)

include hd

theorem Plays.gets (h : e.Plays d) {P : List Note → Engine → List ServiceSet → Prop}
    (hi : e.Gets inputs P) :
    ∃ l t, e.Paces d inputs l t ∧ P l (e.takeAll inputs) (e.afters inputs) := by
  have hw := h.sound.playback.shelf
  rcases hi with ⟨l, t, spot, name, hl, hn, -⟩ | ⟨l, hl, hs, hP⟩
  · have hstarts := (hl.enclosed hd hw h.document).2
    have hname := hstarts spot name (List.mem_append_right l List.mem_cons_self)
    exact absurd (Builtin.steady_of_shared hname).1 hn
  · obtain ⟨hdoc, hstarts⟩ := hl.leads.enclosed hd hw h.document
    have hready := h.ready.steady h.sound hl
      (fun spot name hn => Builtin.steady_of_shared (hstarts spot name hn))
      (fun name hc => Builtin.steady_of_shared (hd.current h.document hc)) rfl
    exact ⟨l, _, ⟨hl, ⟨hs, hready, hdoc⟩, rfl⟩, hP⟩

theorem Plays.paces (h : e.Plays d) (hi : ∀ i ∈ inputs, ¬i.IsSelect) :
    ∃ l t, e.Paces d inputs l t := by
  obtain ⟨l, t, ht, -⟩ := h.gets hd (takeAll_gets h.sound hi)
  exact ⟨l, t, ht⟩

/-- Rounds in which time passes take the next step. -/
theorem Plays.strides (hpos : ∀ i, 0 < delta i) (h : e.Plays d)
    (hnext : e.playback.standing.next (e.playback.shelf e.env) = some (l, u)) :
    ∃ r t, u.Leads (e.playback.shelf e.env) r t ∧ ∃ n, e.Paces d (rounds delta n) (l ++ r) t := by
  have ho : ¬e.playback.Over := by
    intro ho
    rw [Playback.next_of_over ho] at hnext
    cases hnext
  obtain ⟨n, hn⟩ := rounds_advance hpos h.sound h.ready ho
  obtain ⟨m, t, ht, hdone⟩ := h.gets hd hn
  rcases ht.leads.cases_next hnext with ⟨rfl, hstill⟩ | ⟨r, rfl, hr⟩
  · rcases hdone with hg | ho'
    · exact absurd (List.map_eq_nil_iff.1 ht.follows.afters) hg
    · have hover := Playback.next_of_over (w := e.playback.shelf e.env) ho'
      rw [ht.standing, hstill, hnext] at hover
      cases hover
  · exact ⟨r, t, hr, n, ht⟩

/-- In the end main playback passes every standing that is ahead of it. -/
theorem Plays.outruns (hpos : ∀ i, 0 < delta i) (h : e.Plays d)
    (hl : e.playback.standing.Leads (e.playback.shelf e.env) l u) :
    ∃ r t, u.Leads (e.playback.shelf e.env) r t ∧ ∃ n, e.Paces d (rounds delta n) (l ++ r) t := by
  refine hl.outrun (P := fun m t => ∃ n, e.Paces d (rounds delta n) m t) (k := []) ?_
    (.refl _) ⟨0, .of_stays h.sound.playback (.refl _), h, rfl⟩
  rintro k s l t ⟨n, hs⟩ hnext
  have hplain : ∀ i ∈ rounds delta n, ¬i.IsSelect :=
    fun i hi => (isPlain_of_mem_rounds hi).not_isSelect
  have hshelf : (e.takeAll (rounds delta n)).playback.shelf (e.takeAll (rounds delta n)).env =
      e.playback.shelf e.env := by
    rw [takeAll_env h.sound hplain]
    exact hs.follows.shelf
  rw [← hs.standing, ← hshelf] at hnext
  obtain ⟨r, t', hr, n', ht⟩ := hs.plays.strides hd (fun i => hpos (n + i)) hnext
  rw [hshelf] at hr
  exact ⟨r, t', hr, n + n', rounds_add delta n n' ▸ hs.append h.sound hplain ht⟩

end

/-- Two engines in which a script has come to the same end: all that was told, the variables and the
text log agree. -/
structure EndAlike (e : Engine) (inputs : List Input) (e' : Engine) (times : List Nanoseconds) :
    Prop where
  account : e.told inputs = e'.toldAside times
  store : (e.takeAll inputs).services.variableStore =
    (e'.takeAll (times.map .tick)).services.variableStore
  log : (e.takeAll inputs).services.textLog = (e'.takeAll (times.map .tick)).services.textLog

/-- What the main script of one engine does and what a transient script of another one does are the
same: of two accounts, one goes on where the other ends, each run comes as far as the other has come,
and with one run the other ends. -/
structure PlaysAlike (e e' : Engine) (h : TransientHandle) : Prop where
  comparable : ∀ inputs times, (∀ i ∈ inputs, i.IsPlain) →
    (e.told inputs).Within (e'.toldAside times) ∨ (e'.toldAside times).Within (e.told inputs)
  aside : ∀ inputs (delta : Nat → Nanoseconds), (∀ i ∈ inputs, i.IsPlain) → (∀ i, 0 < delta i) →
    ∃ n, (e.told inputs).Within (e'.toldAside (spans delta n)) ∧
      ((e.takeAll inputs).status = .stopped →
        (e'.takeAll ((spans delta n).map .tick)).transients.isRunning h = false ∧
          EndAlike e inputs e' (spans delta n))
  main : ∀ times (delta : Nat → Nanoseconds), (∀ i, 0 < delta i) →
    ∃ n, (e'.toldAside times).Within (e.told (rounds delta n)) ∧
      ((e'.takeAll (times.map .tick)).transients.isRunning h = false →
        (e.takeAll (rounds delta n)).status = .stopped ∧ EndAlike e (rounds delta n) e' times)

section

variable {e' : Engine} {h : TransientHandle} {times : List Nanoseconds}

theorem Trails.told_eq {w : Shelf} (ht : e'.Trails w d h u times l t) :
    e'.toldAside times = noted l :=
  ht.alike.noted_eq

/-- Where both have come to one standing, they have come to the same end. -/
theorem Paces.endAlike {w : Shelf} (hi : e.Paces d inputs l t) (ht : e'.Trails w d h u times l t) :
    EndAlike e inputs e' times := by
  have hservices : (e.takeAll inputs).services.story =
      (e'.takeAll (times.map .tick)).services.story :=
    (congrArg Standing.services hi.standing).trans ht.beside.services_eq
  have hvariables := congrArg ServiceSet.variableStore hservices
  have hlog := congrArg ServiceSet.textLog hservices
  exact ⟨hi.told_eq.trans ht.told_eq.symm, hvariables, hlog⟩

/-- A script that never leaves itself plays in the same way from where both stand alike. -/
theorem Plays.alike (hd : d.Enclosed) (he : e.Plays d)
    (hstaged : d.Staged (e.playback.shelf e.env).registry)
    (hb : e'.Beside (e.playback.shelf e.env) d h e.playback.standing) : PlaysAlike e e' h := by
  have hw := he.sound.playback.shelf
  refine ⟨fun inputs times hplain => ?_, fun inputs delta hplain hpos => ?_,
    fun times delta hpos => ?_⟩
  · obtain ⟨l, t, ht⟩ := he.paces hd fun i hi => (hplain i hi).not_isSelect
    obtain ⟨m, u, hu⟩ := hb.ticks hd hw hstaged times
    rw [ht.told_eq, hu.told_eq]
    rcases ht.leads.comparable hu.leads with ⟨r, -, rfl⟩ | ⟨r, -, rfl⟩
    · exact .inl (within_noted l r)
    · exact .inr (within_noted m r)
  · obtain ⟨l, t, ht⟩ := he.paces hd fun i hi => (hplain i hi).not_isSelect
    obtain ⟨r, v, hr, n, hv⟩ := hb.outruns hd hw hstaged hpos ht.leads
    by_cases hi : t.index = none
    · obtain ⟨rfl, rfl⟩ := hr.eq_of_over (Standing.next_of_index hi)
      rw [List.append_nil] at hv
      -- The run comes to the end of the script with one tick and finds that out with the next.
      obtain ⟨hlast, hended⟩ := hv.beside.ends hd hw hstaged hi (delta n)
      have hend := hv.append hlast
      rw [List.append_nil] at hend
      have hspans : spans delta (n + 1) = spans delta n ++ [delta n] := spans_add delta n 1
      refine ⟨n + 1, ?_, fun _ => ⟨?_, ?_⟩⟩
      · rw [ht.told_eq, hspans, hend.told_eq]
        exact ⟨List.prefix_rfl, List.prefix_rfl⟩
      · rw [hspans, List.map_append, takeAll_append]
        exact hended
      · rw [hspans]
        exact ht.endAlike hend
    · refine ⟨n, ?_, fun hstop => absurd ?_ hi⟩
      · rw [ht.told_eq, hv.told_eq]
        exact within_noted l r
      · rw [← ht.standing]
        exact ht.plays.stopped_iff.1 hstop
  · obtain ⟨m, u, hu⟩ := hb.ticks hd hw hstaged times
    obtain ⟨r, t, hr, n, ht⟩ := he.outruns hd hpos hu.leads
    refine ⟨n, ?_, fun hended => ?_⟩
    · rw [ht.told_eq, hu.told_eq]
      exact within_noted m r
    · rw [hu.beside.isRunning_eq, Bool.not_eq_false'] at hended
      have hi := hu.beside.index_eq (List.isEmpty_iff.1 hended)
      obtain ⟨rfl, rfl⟩ := hr.eq_of_over (Standing.next_of_index hi)
      rw [List.append_nil] at ht
      exact ⟨ht.plays.stopped_iff.2 (ht.standing ▸ hi), ht.endAlike hu⟩

end

/-- A script of commands that neither halt, offer options, call nor return, and that jump only inside
it, plays beside the main script as it plays as the main script, whatever the variables are at its
start and however much a tick plays. -/
theorem Sound.playsAlike (he : e.Sound) (hrest : e.player.document = none)
    (hpending : e.services.choicesPending = false) {name text : String}
    (hp : Document.parse e.registry e.library.waitByDefault name text = .ok d) (hd : d.Enclosed)
    {scope : CancelScope} (hscope : e.playback.scopes.isCancelled scope = false) :
    ∃ e₁ e₂ e₃ h, e.loadScript name text = (e₁, .ok d) ∧ e₁.play name = (e₂, .ok ()) ∧
      e.playTransient name text scope = (e₃, .ok h) ∧ PlaysAlike e₂ e₃ h := by
  obtain ⟨e₁, hload⟩ := loadScript_eq hp
  obtain ⟨hs₁, hplayback, henv, hscript⟩ := he.loadScript hrest hload
  obtain ⟨e₂, hplay, hb⟩ := playFrom_begins hs₁ ((hscript name).trans (if_pos rfl))
    (Nat.zero_le _)
  obtain ⟨e₃, h, haside, hbeside⟩ : ∃ e₃ h, e.playTransient name text scope = (e₃, .ok h) ∧
      ∀ w : Shelf, e.registry = w.registry → e₃.Beside w d h (.opening d 0 e.services.story) := by
    unfold playTransient
    rw [hp]
    refine ⟨_, _, rfl, fun w hw => ⟨hrest, hw, he.budget,
      .inl ⟨⟨⟨e.transients.started + 1⟩, d, 0, false, none, scope⟩, ?_, rfl, hscope, ?_⟩⟩⟩
    · show e.transients.runs ++ [_] = [_]
      rw [he.alone]
      rfl
    · exact ⟨rfl, rfl, rfl, rfl, rfl, rfl, fun i task ha => by cases ha⟩
  have hservices : e₁.services = e.services := by
    show e₁.playback.scene.services = _
    rw [hplayback]
    rfl
  have hregistry : e.registry = (e₂.playback.shelf e₂.env).registry := by
    show _ = e₂.env.source.registry
    rw [hb.env, henv]
    rfl
  have hstaged := (Document.staged_of_parse he.playback.shelf.registry hp).2
  have hplays : e₂.Plays d := by
    refine ⟨hb.sound, ⟨hb.ready.1, ?_⟩, congrArg Standing.document hb.standing⟩
    show e₂.services.choicesPending = false
    rw [hb.services, hservices]
    exact hpending
  refine ⟨e₁, e₂, e₃, h, hload, hplay, haside, hplays.alike hd (hregistry ▸ hstaged) ?_⟩
  rw [hb.standing, hservices]
  exact hbeside _ hregistry

/-- A script that counts in a loop. -/
def counting : String :=
  "@set n = 0\n#again\nStep.\n@wait 1\n@set n = n + 1\n@if n < 2\n@goto .again\n@endif\nDone.\n"

theorem playsAlike_counting : ∃ (e e₁ e₂ e₃ : Engine) (d : Document) (h : TransientHandle),
    e.Sound ∧ d.size = 8 ∧ e.loadScript "counting" counting = (e₁, .ok d) ∧
      e₁.play "counting" = (e₂, .ok ()) ∧
      e.playTransient "counting" counting e.player.scope = (e₃, .ok h) ∧ PlaysAlike e₂ e₃ h ∧
      (e₃.toldAside (spans (fun _ => 400000000) 10)).commands.map Prod.snd =
        ["set", "print", "wait", "set", "if", "goto", "print", "wait", "set", "if", "endif",
          "print"] := by
  obtain ⟨e, he, hs, hr, hw, hrest, hservices, -⟩ := exists_fresh
  have hcheck : (Document.parse .builtin true "counting" counting).toOption.any
      (fun d => decide (d.size = 8 ∧ d.Enclosed)) = true := by decide +kernel
  obtain ⟨d, hd, hcheck⟩ := (Option.any_eq_true _ _).1 hcheck
  obtain ⟨hsize, henclosed⟩ := of_decide_eq_true hcheck
  have hp := eq_ok_of_toOption hd
  rw [← hr, ← hw] at hp
  have hpending : e.services.choicesPending = false := by
    rw [hservices]
    rfl
  obtain ⟨e₁, e₂, e₃, h, hload, hplay, haside, halike⟩ :=
    hs.playsAlike hrest hpending hp henclosed hs.playback.live
  have hrun : (build {} {}).toOption.all (fun e => decide
      (((e.playTransient "counting" counting e.player.scope).1.toldAside
        (spans (fun _ => 400000000) 10)).commands.map Prod.snd =
        ["set", "print", "wait", "set", "if", "goto", "print", "wait", "set", "if", "endif",
          "print"])) = true := by decide +kernel
  rw [he] at hrun
  have htold := of_decide_eq_true hrun
  rw [show e.playTransient "counting" counting e.player.scope = _ from haside] at htold
  exact ⟨e, e₁, e₂, e₃, d, h, hs, hsize, hload, hplay, haside, halike, htold⟩

end Engine

end Playhead
