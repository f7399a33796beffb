import Playhead.Headless.Drive
import Playhead.Proofs.Engine.Launched
import Playhead.Proofs.Engine.Logged

/-!
What the report of a run without a frontend says.

Main statement: a script that was just started and is driven to a report has all its lines in it,
each once and in order, all answers that were given, and whether playback is over.
-/

namespace Playhead

theorem Player.status_ne_idle {p : Player} (h : p.document.isSome = true) : p.status ≠ .idle := by
  have hplays : ¬p.document.isNone = true := by
    rw [Option.isNone_iff_eq_none]
    exact Option.isSome_iff_ne_none.1 h
  unfold status
  rw [if_neg hplays]
  split
  · exact nofun
  · split
    · exact nofun
    · split
      · exact nofun
      · split <;> exact nofun

/-- A script that plays goes on to be one, whatever the host does. -/
theorem Engine.Reachable.document_perform {e : Engine} (h : e.Reachable)
    (hd : e.player.document.isSome = true) (op : Operation) :
    (e.perform op).player.document.isSome = true := by
  have hwithin : op.Within (.free True) e := within_free fun _ => trivial
  have hturns := perform_turns h.read hwithin
  refine hturns.turns.keeps (I := fun b => b.document.isSome = true) (fun b c hturn hb => ?_) hd
  cases hturn with
  | move | restart | goBack | load => rfl
  | _ => exact hb

/-- Each choice took one of its options: the one that is given for it, or the first one if none
is. -/
def RunReport.Answers (choose : List Nat) (r : RunReport) : Prop :=
  ∀ (i : Nat) (c : ChoiceRecord), r.choices[i]? = some c →
    c.picked < c.options.length ∧ c.picked = choose[i]?.getD 0

theorem RunReport.Answers.add {choose : List Nat} {r r' : RunReport} {options : List String}
    {picked : Nat} (hr : r.Answers choose) (h : r'.choices = r.choices ++ [⟨options, picked⟩])
    (hvalid : picked < options.length)
    (hpicked : picked = choose[r.choices.length]?.getD 0) : r'.Answers choose := by
  intro i c hc
  rw [h] at hc
  rcases Nat.lt_or_ge i r.choices.length with hi | hi
  · rw [List.getElem?_append_left hi] at hc
    exact hr i c hc
  · rw [List.getElem?_append_right hi] at hc
    obtain ⟨hzero, rfl⟩ : i - r.choices.length = 0 ∧ _ := by
      simpa [List.getElem?_singleton] using hc
    obtain rfl : i = r.choices.length := by omega
    exact ⟨hvalid, hpicked⟩

namespace Drive

/-- A run that has collected all of the text log. -/
def Collected (d : Drive) : Prop :=
  ∃ log, d.engine.services.textLog = some log ∧ d.seen = log.size ∧
    d.report.lines = log.entries.map LogEntry.line

/-- A run under way whose report has all lines and answers so far, and the list of what is picked
later. -/
structure Faithful (choose : List Nat) (d : Drive) : Prop where
  reachable : d.engine.Reachable
  registry : d.engine.registry.Starts Task.Appends
  document : d.engine.player.document.isSome = true
  collected : d.Collected
  picks : d.picks = choose.drop d.report.choices.length
  answers : d.report.Answers choose

/-- A run after a tick, with the events and lines of the tick taken note of. -/
def ticked (d : Drive) (e : Engine) : Drive :=
  ({ d with engine := e, report := { d.report with ticks := d.report.ticks + 1 } } :
    Drive).drainEvents.collectLines

variable {choose : List Nat} {d d' : Drive} {e : Engine}

/-- Events are reported beside lines, answers and ticks. -/
theorem note_frame (r : RunReport) (events : List Event) :
    (events.foldl note r).lines = r.lines ∧ (events.foldl note r).choices = r.choices ∧
      (events.foldl note r).ticks = r.ticks ∧ (events.foldl note r).finished = r.finished := by
  induction events generalizing r with
  | nil => exact ⟨rfl, rfl, rfl, rfl⟩
  | cons event rest ih =>
    have hone : (note r event).lines = r.lines ∧ (note r event).choices = r.choices ∧
        (note r event).ticks = r.ticks ∧ (note r event).finished = r.finished := by
      unfold note
      split <;> exact ⟨rfl, rfl, rfl, rfl⟩
    obtain ⟨hlines, hchoices, hticks, hfinished⟩ := ih (note r event)
    exact ⟨hlines.trans hone.1, hchoices.trans hone.2.1, hticks.trans hone.2.2.1,
      hfinished.trans hone.2.2.2⟩

theorem ticked_frame (d : Drive) (e : Engine) :
    (d.ticked e).engine = e.perform .drain ∧ (d.ticked e).picks = d.picks ∧
      (d.ticked e).report.choices = d.report.choices ∧
      (d.ticked e).report.ticks = d.report.ticks + 1 ∧
      (d.ticked e).report.finished = d.report.finished := by
  obtain ⟨-, hchoices, hticks, hfinished⟩ :=
    note_frame { d.report with ticks := d.report.ticks + 1 } e.playback.scene.events
  unfold ticked collectLines
  split
  · exact ⟨rfl, rfl, hchoices, hticks, hfinished⟩
  · exact ⟨rfl, rfl, hchoices, hticks, hfinished⟩

/-- What is collected after a tick is what the tick has added to the text log. -/
theorem collected_ticked {log : TextLog} (hseen : d.seen = log.size)
    (hlines : d.report.lines = log.entries.map LogEntry.line)
    (he : e.services.Logs log.entries) : (d.ticked e).Collected := by
  obtain ⟨log', hlog', added, hadded⟩ := he
  obtain ⟨hnoted, -⟩ :=
    note_frame { d.report with ticks := d.report.ticks + 1 } e.playback.scene.events
  obtain ⟨u, hu⟩ : ∃ u, u = ({ d with
      engine := e
      report := { d.report with ticks := d.report.ticks + 1 } } : Drive).drainEvents := ⟨_, rfl⟩
  have hulog : u.engine.services.textLog = some log' := by
    rw [hu]
    exact hlog'
  have hulines : u.report.lines = log.entries.map LogEntry.line := by
    rw [hu]
    exact hnoted.trans hlines
  have huseen : u.seen = log.entries.length := by
    rw [hu, TextLog.entries, List.length_reverse]
    exact hseen
  refine ⟨log', ?_, ?_, ?_⟩
  · rw [(d.ticked_frame e).1]
    exact hlog'
  · unfold ticked collectLines
    rw [← hu, hulog]
  · unfold ticked collectLines
    rw [← hu, hulog]
    show u.report.lines ++ (log'.entries.drop u.seen).map LogEntry.line = _
    rw [hulines, huseen, ← hadded, List.drop_left, List.map_append]

theorem Faithful.ticked (hd : d.Faithful choose) {tick : Nanoseconds}
    (h : d.engine.tick tick = (e, .ok ())) : (d.ticked e).Faithful choose := by
  obtain ⟨log, hlog, hseen, hlines⟩ := hd.collected
  obtain ⟨hengine, hpicks, hchoices, -⟩ := d.ticked_frame e
  have he : e = d.engine.perform (.input (.tick tick)) := (congrArg Prod.fst h).symm
  have hreachable : e.Reachable := he ▸ hd.reachable.perform _
  have hlogs : (d.engine.tick tick).1.Logs log.entries :=
    (hd.reachable.logs hd.registry ⟨log, hlog, List.prefix_refl _⟩).tick hd.reachable.sited tick
  rw [h] at hlogs
  refine ⟨?_, ?_, ?_, collected_ticked hseen hlines hlogs.playback.services, ?_, ?_⟩
  · exact hengine ▸ hreachable.perform .drain
  · exact hengine ▸ hlogs.registry
  · rw [hengine, he]
    exact (hd.reachable.document_perform hd.document _)
  · rw [hpicks, hchoices, hd.picks]
  · exact fun i c hc => hd.answers i c (hchoices ▸ hc)

/-- What a host does between ticks leaves a run faithful, if it writes nothing to the text log. -/
theorem Faithful.perform (hd : d.Faithful choose) (op : Operation)
    (hregistry : (d.engine.perform op).registry = d.engine.registry)
    (hlog : (d.engine.perform op).services.textLog = d.engine.services.textLog) :
    ({ d with engine := d.engine.perform op } : Drive).Faithful choose := by
  obtain ⟨log, hfound, hseen, hlines⟩ := hd.collected
  exact ⟨hd.reachable.perform op, hregistry.symm ▸ hd.registry,
    hd.reachable.document_perform hd.document op, ⟨log, hlog.trans hfound, hseen, hlines⟩,
    hd.picks, hd.answers⟩

/-- An answer is taken from the list and put into the report. -/
theorem Faithful.pick (hd : d.Faithful choose) {options : List String}
    (h : d.pick options = (d', .ok ())) :
    d'.Faithful choose ∧ d'.report.ticks = d.report.ticks ∧
      d'.report.finished = d.report.finished := by
  unfold Drive.pick at h
  obtain ⟨picked, hpicked⟩ : ∃ picked, picked = d.picks.head?.getD 0 := ⟨_, rfl⟩
  have hgiven : picked = choose[d.report.choices.length]?.getD 0 := by
    rw [hpicked, hd.picks, List.head?_drop]
  dsimp only at h
  rw [← hpicked] at h
  cases hoption : options[picked]? with
  | none =>
    rw [hoption] at h
    cases h
  | some option =>
    have hvalid : picked < options.length := (List.getElem?_eq_some_iff.1 hoption).1
    rw [hoption] at h
    dsimp only at h
    generalize hselect : d.engine.selectChoice picked = r at h
    obtain ⟨e, err | _⟩ := r
    · cases h
    · have he : e = d.engine.perform (.input (.select picked)) := (congrArg Prod.fst hselect).symm
      have hwithin : (Operation.input (.select picked)).Within (.free True) d.engine :=
        Engine.within_free fun _ => trivial
      have hturns := Engine.perform_turns hd.reachable.read hwithin
      have hkept := hd.perform (.input (.select picked)) hturns.registry
        (he ▸ Engine.textLog_selectChoice hselect)
      cases h
      refine ⟨⟨?_, ?_, ?_, ?_, ?_, ?_⟩, rfl, rfl⟩
      · exact he ▸ hkept.reachable
      · exact he ▸ hkept.registry
      · exact he ▸ hkept.document
      · exact he ▸ hkept.collected
      · show d.picks.tail = choose.drop (d.report.choices ++ [_]).length
        rw [hd.picks, List.tail_drop, List.length_append, List.length_singleton]
      · exact hd.answers.add rfl hvalid hgiven

/-- A run that goes on after a tick is faithful. -/
theorem Faithful.respond (hd : d.Faithful choose) (h : d.respond = (d', .ok true)) :
    d'.Faithful choose ∧ d'.report.ticks = d.report.ticks ∧
      d'.report.finished = d.report.finished := by
  unfold Drive.respond at h
  split at h
  · cases h
  · cases h
  · dsimp only at h
    split at h
    · cases h
      exact ⟨hd.perform (.input .goOn) rfl
        (congrArg ServiceSet.textLog d.engine.playback.services_continueInput), rfl, rfl⟩
    · split at h
      · rename_i u hpick
        cases h
        exact hd.pick hpick
      · cases h
  · cases h
    exact ⟨hd, rfl, rfl⟩

/-- A run ends by itself only where playback is over. -/
theorem Faithful.respond_over (hd : d.Faithful choose) (h : d.respond = (d', .ok false)) :
    d' = { d with report := { d.report with finished := true } } ∧
      d.engine.status = .stopped := by
  unfold Drive.respond at h
  split at h
  · rename_i hstatus
    cases h
    exact ⟨rfl, hstatus⟩
  · rename_i hstatus
    exact absurd hstatus (Player.status_ne_idle hd.document)
  · dsimp only at h
    split at h
    · cases h
    · split at h <;> cases h
  · cases h

/-- A report of a run that had been faithful so far. -/
structure Ends (choose : List Nat) (d d' : Drive) (n : Nat) : Prop where
  collected : d'.Collected
  answers : d'.report.Answers choose
  ticks : d'.report.ticks ≤ d.report.ticks + n
  finished : d'.report.finished = true → d'.engine.status = .stopped
  unfinished : d'.report.finished = false → d'.report.ticks = d.report.ticks + n

theorem Faithful.run (hd : d.Faithful choose) (hf : d.report.finished = false)
    {tick : Nanoseconds} {n : Nat} (h : Drive.run tick n d = (d', .ok ())) :
    Ends choose d d' n := by
  induction n generalizing d with
  | zero =>
    cases h
    exact ⟨hd.collected, hd.answers, Nat.le_refl _, (fun htrue => by cases hf.symm.trans htrue),
      fun _ => rfl⟩
  | succ n ih =>
    unfold Drive.run at h
    generalize htick : d.engine.tick tick = r at h
    obtain ⟨e, err | _⟩ := r
    · cases h
    · have hticked := hd.ticked htick
      obtain ⟨-, -, -, hticks, hfinished⟩ := d.ticked_frame e
      dsimp only at h
      split at h
      · cases h
      · rename_i u hrespond
        obtain ⟨rfl, hstopped⟩ := hticked.respond_over hrespond
        cases h
        refine ⟨hticked.collected, hticked.answers, ?_, fun _ => hstopped, nofun⟩
        show (d.ticked e).report.ticks ≤ _
        omega
      · rename_i u hrespond
        obtain ⟨hu, huticks, hufinished⟩ := hticked.respond hrespond
        have hends := ih hu (hufinished.trans (hfinished.trans hf)) h
        refine ⟨hends.collected, hends.answers, ?_, hends.finished, fun hfalse => ?_⟩
        · have := hends.ticks
          omega
        · have := hends.unfinished hfalse
          omega

end Drive

open Drive in
/-- A script that was just started and driven to a report has been ticked as often as is allowed at
most. The report has the lines of the text log in order, each once; the answers, which are those
that were given and then the first options; and it says that the run has finished only if playback
is over. -/
theorem Engine.drive_reports {config : Config} {parts : EngineParts} {e : Engine}
    (he : Launched config parts e)
    (hcommands : ∀ h ∈ parts.commands, ∀ c t, h.begin c = .ok t → t.Appends)
    {script : String} {o : DriveOptions} {d : Drive} (h : e.drive script o = (d, .ok ())) :
    d.report.ticks ≤ o.maxTicks ∧
      (∃ log, d.engine.services.textLog = some log ∧
        d.report.lines = log.entries.map LogEntry.line) ∧
      (∀ (i : Nat) (c : ChoiceRecord), d.report.choices[i]? = some c →
        c.picked < c.options.length ∧ c.picked = o.choose[i]?.getD 0) ∧
      (d.report.finished = true → d.engine.status = .stopped) ∧
      (d.report.finished = false → d.report.ticks = o.maxTicks) := by
  obtain ⟨hlog, hdocument⟩ := he.unprinted
  have hstart : (Drive.start e script o).Faithful o.choose :=
    ⟨he.reachable, he.starts (fun _ => Task.appends_of_not_isHost) hcommands, hdocument,
      ⟨.empty, hlog, rfl, rfl⟩, rfl, fun i c hc => by simp [Drive.start] at hc⟩
  have hends := hstart.run rfl h
  obtain ⟨log, hfound, -, hlines⟩ := hends.collected
  have hzero : (Drive.start e script o).report.ticks + o.maxTicks = o.maxTicks := Nat.zero_add _
  exact ⟨hzero ▸ hends.ticks, ⟨log, hfound, hlines⟩, hends.answers, hends.finished,
    hzero ▸ hends.unfinished⟩

namespace Engine

/-- A way that forks. On the right a bell rings beside the script. -/
def fork : String :=
  "Guide: Where to?\n@choice Left goto:.left\n@choice Right goto:.right do:\"@print Ding\"\n" ++
    "#left\nWent left\n@stop\n#right\nGuide: Here we are.\n"

def rightOnce : DriveOptions :=
  ⟨[1], 9, 0⟩

/-- All that is said on the way to the right is reported once, the bell among it. -/
theorem drive_reports_fork : ∃ e d log, Launched {} {} e ∧
    e.drive "tale" rightOnce = (d, .ok ()) ∧ d.report.ticks ≤ 9 ∧
    d.engine.services.textLog = some log ∧
    ["Guide: Where to?", "Guide: Here we are.", "Ding"] = log.entries.map LogEntry.line ∧
    d.report.choices = [⟨["Left", "Right"], 1⟩] ∧ d.engine.status = .stopped := by
  have hrun : ((build {} {}).toOption.any fun e =>
      let r := (e.holding [("tale", fork)]).playFrom "tale" 0
      let s := r.1.drive "tale" rightOnce
      r.2.toOption = some () ∧ s.2.toOption = some () ∧ s.1.report.finished ∧
        s.1.report.lines = ["Guide: Where to?", "Guide: Here we are.", "Ding"] ∧
        s.1.report.choices = [⟨["Left", "Right"], 1⟩]) = true := by
    decide +kernel
  obtain ⟨e₀, he₀, hcheck⟩ := (Option.any_eq_true _ _).1 hrun
  obtain ⟨hplay, hdrive, hfinished, hlines, hchoices⟩ := of_decide_eq_true hcheck
  generalize hplayed : (e₀.holding [("tale", fork)]).playFrom "tale" 0 = r
    at hplay hdrive hfinished hlines hchoices
  obtain ⟨e, result⟩ := r
  obtain rfl : result = .ok () := eq_ok_of_toOption hplay
  have hlaunched : Launched {} {} e := ⟨e₀, _, eq_ok_of_toOption he₀, .playFrom hplayed⟩
  generalize hreport : e.drive "tale" rightOnce = r at hdrive hfinished hlines hchoices
  obtain ⟨d, result⟩ := r
  obtain rfl : result = .ok () := eq_ok_of_toOption hdrive
  obtain ⟨hticks, ⟨log, hlog, hall⟩, -, hstopped, -⟩ :=
    drive_reports hlaunched (fun _ h => absurd h List.not_mem_nil) hreport
  exact ⟨e, d, log, hlaunched, hreport, hticks, hlog, hlines ▸ hall, hchoices, hstopped hfinished⟩

end Engine

end Playhead
