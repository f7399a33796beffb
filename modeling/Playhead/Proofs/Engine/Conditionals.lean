import Playhead.Proofs.Engine.Rounds
import Playhead.Proofs.Standing.Steady
import Playhead.Proofs.Standing.Walk

/-!
Playing a script of conditional blocks tells what its outline tells.
-/

namespace Playhead

namespace Builtin

theorem steady_of_tellable {name : String} (h : name ∈ tellable) : Steady name :=
  (by decide : ∀ n ∈ tellable, Steady n) name h

/-- A command that can be told is no wait. -/
theorem Tells.ne_wait {r : Registry} (hr : r.Sound) {c : Command} (hc : Tells r c) :
    r.get? c.name ≠ some Builtin.wait := by
  obtain ⟨h, hh, -⟩ := handler_of_tells hr hc
  rw [hh]
  intro hw
  obtain ⟨k, hk, hname⟩ := List.mem_map.1 (steady_of_tellable hc.1).1
  rw [← hname, hr.builtin k hk] at hh
  cases hh
  cases hw
  have hmem := hc.1
  rw [← hname] at hmem
  exact absurd hmem (by decide)

end Builtin

namespace Playback

variable {env : Env} {p : Playback}

/-- A wait in flight is that of a `wait` command. -/
theorem wait_of_left (hp : Sound env p) {a : ActiveCommand} (ha : p.player.active = some a)
    (hleft : 0 < a.left) {P : String → Prop}
    (hP : ∀ name, p.standing.Current name → P name) :
    ∃ c : Command, P c.name ∧ c.Known env.source.registry ∧
      env.source.registry.get? c.name = some Builtin.wait := by
  obtain ⟨d, c, h, t, hf, hm, hbegun, hunder⟩ := hp.flight ha
  have hstaged := (hp.shelf.staged _ _ (hp.placed d a.index hf.document hf.index).1).2
  have htask : ∃ w, t = .wait w := by
    rcases hunder with ht | ⟨v, w, hv, -, -⟩
    · unfold ActiveCommand.left at hleft
      rw [ht] at hleft
      cases t with
      | wait w => exact ⟨w, rfl⟩
      | _ => exact absurd hleft (Nat.lt_irrefl 0)
    · exact ⟨v, hv⟩
  obtain ⟨w, rfl⟩ := htask
  refine ⟨c, hP _ (hf.current ha), hstaged.handler hf.command, ?_⟩
  cases Builtin.starts_of_begin hm hbegun
  exact hf.handler

end Playback

namespace Engine

variable {e : Engine}

/-- A way to the end of the story that stays in one script. -/
structure Path (e : Engine) (d : Document) (l : List Note) (t : Standing) : Prop where
  leads : e.playback.standing.Leads (e.playback.shelf e.env) l t
  finished : t.next (e.playback.shelf e.env) = none
  held : t.document ≠ none
  inside : Standing.Inside d l

namespace Path

variable {d : Document} {l : List Note} {t : Standing}

/-- Whatever is noted before the end of a path is noted on it. -/
theorem goes_on (h : e.Path d l t) {m : List Note} {u : Standing}
    (hm : e.playback.standing.Leads (e.playback.shelf e.env) m u) :
    ∃ r, u.Leads (e.playback.shelf e.env) r t ∧ l = m ++ r := by
  rcases h.leads.comparable hm with ⟨r, hr, rfl⟩ | hr
  · obtain ⟨rfl, rfl⟩ := hr.eq_of_over h.finished
    exact ⟨[], .refl _, by rw [List.append_nil, List.append_nil]⟩
  · exact hr

theorem starts (h : e.Path d l t) {P : String → Prop}
    (hd : ∀ i c, d.command? i = some c → P c.name) : Standing.Starts l P := by
  intro spot name hn
  obtain ⟨-, c, hc, rfl⟩ := h.inside.2 spot name hn
  exact hd _ c hc

theorem document_ne (h : e.Path d l t) : e.player.document ≠ none := by
  intro hd
  obtain ⟨-, rfl⟩ := h.leads.eq_of_over (Playback.next_of_over (.inl hd))
  exact h.held hd

/-- Driving goes along a path of built-in commands. -/
theorem gets (h : e.Path d l t) (hd : ∀ i c, d.command? i = some c → c.name ∈ Builtin.names)
    {inputs : List Input} {P : List Note → Engine → List ServiceSet → Prop}
    (hg : e.Gets inputs P) :
    ∃ m r, l = m ++ r ∧
      Playback.Follows e.env e.playback m (e.takeAll inputs).playback (e.afters inputs) ∧
      (e.takeAll inputs).playback.standing.Leads (e.playback.shelf e.env) r t ∧
      (e.takeAll inputs).Sound ∧ P m (e.takeAll inputs) (e.afters inputs) := by
  rcases hg with ⟨m, u, spot, name, hm, hn, -, -⟩ | ⟨m, hm, hs, hP⟩
  · obtain ⟨r, -, rfl⟩ := h.goes_on hm
    refine absurd (h.starts hd spot name ?_) hn
    simp
  · obtain ⟨r, hr, rfl⟩ := h.goes_on hm.leads
    exact ⟨m, r, rfl, hm, hr, hs, hP⟩

/-- What is left of a path after driving along it. -/
theorem rest (h : e.Path d l t) {m r : List Note} {p : Playback} {g : List ServiceSet}
    (hl : l = m ++ r) (hm : Playback.Follows e.env e.playback m p g)
    (hr : p.standing.Leads (e.playback.shelf e.env) r t) {e' : Engine} (hp : e'.playback = p)
    (henv : e'.env = e.env) : e'.Path d r t := by
  have hshelf : e'.playback.shelf e'.env = e.playback.shelf e.env := by rw [hp, henv, hm.shelf]
  refine ⟨by rw [hshelf, hp]; exact hr, by rw [hshelf]; exact h.finished, h.held, fun hn => ?_,
    fun s name hn => h.inside.2 s name ?_⟩
  · exact h.inside.1 (hl ▸ List.mem_append_right m hn)
  · rw [hl]
    exact List.mem_append_right m hn

/-- Rounds come to the end of a path on which there is nothing to wait for. -/
theorem stops (n : Nat) {delta : Nat → Nanoseconds} (h : e.Path d l t) (he : e.Sound)
    (hr : e.Ready) (hd : ∀ i c, d.command? i = some c → c.name ∈ Builtin.tellable)
    (hc : ∀ name, e.playback.standing.Current name → name ∈ Builtin.tellable)
    (hn : (l.filterMap Note.after?).length < n) :
    ∃ k, (e.takeAll (rounds delta k)).status = .stopped := by
  induction n generalizing e delta l with
  | zero => cases hn
  | succ n ih =>
    by_cases ho : e.playback.Over
    · exact ⟨0, stopped_of_over h.document_ne ho⟩
    obtain ⟨m, r, rfl, hm, hr', hs, hround⟩ :=
      h.gets (fun i c hi => (Builtin.steady_of_tellable (hd i c hi)).1)
        (round_advances he hr ho (delta 0))
    have hpath := h.rest rfl hm hr' rfl 
      (takeAll_env he fun i => not_isSelect_of_mem_round)
    have hstarts := (Standing.starts_append.1 (h.starts hd)).1
    have hcur := (hm.leads.keeps (m := []) (P := (· ∈ Builtin.tellable)) (I := fun _ _ => True)
      (fun _ _ _ _ _ _ _ => trivial) hstarts hc trivial).2
    have hready : (e.takeAll [.goOn, .tick (delta 0)]).Ready :=
      hr.steady he hm (fun s name hn => Builtin.steady_of_tellable (hstarts s name hn))
        (fun name hn => Builtin.steady_of_tellable (hc name hn)) rfl
    rcases hround with hg | ho' | ⟨b, hb, hpos, -⟩
    · have hlen : (m.filterMap Note.after?).length ≠ 0 := by
        rw [← hm.afters, List.length_map]
        exact fun h => hg (List.length_eq_zero_iff.1 h)
      rw [List.filterMap_append, List.length_append] at hn
      obtain ⟨k, hk⟩ : ∃ k, ((e.takeAll [.goOn, .tick (delta 0)]).takeAll
          (rounds (fun i => delta (i + 1)) k)).status = .stopped :=
        ih hpath hs hready hcur (by omega)
      exact ⟨k + 1, hk⟩
    · exact ⟨1, stopped_of_over hpath.document_ne ho'⟩
    · obtain ⟨c, hname, hknown, hwait⟩ := Playback.wait_of_left hs.playback hb hpos hcur
      exact absurd hwait (Builtin.Tells.ne_wait hs.playback.shelf.registry ⟨hname, hknown⟩)

end Path

/-- Playing a script of conditional blocks with `set` and `print` commands between them comes to
the conditions and commands that its outline tells, in that order, and leaves behind the variables
and the log that the outline tells, however much a tick plays. -/
theorem play_tells (he : e.Sound) (hrest : e.player.document = none) {name text : String}
    {d : Document} (hp : Document.parse e.registry e.library.waitByDefault name text = .ok d)
    (hd : ∀ c ∈ d.commands.toList, c.name ∈ Builtin.tellable) :
    ∃ e₁ e₂, e.loadScript name text = (e₁, .ok d) ∧ e₁.play name = (e₂, .ok ()) ∧
      (∃ o : Outline, o.commands = d.commands.toList) ∧
      ∀ o : Outline, o.commands = d.commands.toList →
        let told := o.tell 0 ⟨e.services.variableStore, e.services.textLog, []⟩
        (∀ l, (∀ i ∈ l, i.IsPlain) → (e₂.takeAll l).status = .stopped →
          (e₂.plotOf l).filterMap d.told? = told.trace.map (Spot.mk d.name) ∧
          (e₂.takeAll l).services.variableStore = told.vars ∧
          (e₂.takeAll l).services.textLog = told.log) ∧
        (e.services.choicesPending = false →
          ∀ delta, ∃ n, (e₂.takeAll (rounds delta n)).status = .stopped) := by
  obtain ⟨e₁, hload⟩ := loadScript_eq hp
  obtain ⟨hs₁, hplayback, henv, hscript⟩ := he.loadScript hrest hload
  obtain ⟨e₂, hplay, hb⟩ := playFrom_begins hs₁ ((hscript name).trans (if_pos rfl))
    (Nat.zero_le _)
  obtain ⟨o, ho, -⟩ := Document.exists_outline hp
  refine ⟨e₁, e₂, hload, hplay, ⟨o, ho⟩, fun o ho => ?_⟩
  intro told
  have hnames : ∀ i c, d.command? i = some c → c.name ∈ Builtin.tellable :=
    fun i c hc => hd c (Document.mem_of_command? hc)
  have hservices : e₂.services = e.services := by
    rw [hb.services]
    show e₁.playback.scene.services = _
    rw [hplayback]
    rfl
  have hpath : ∃ l t, e₂.Path d l t ∧ t.services = told.on e.services.story ∧
      told.trace.map (Spot.mk d.name) = (l.filterMap Note.event?).filterMap d.told? := by
    have hregistry : (e₂.playback.shelf e₂.env).registry = e.registry := by
      show e₂.env.source.registry = _
      rw [hb.env, henv]
      rfl
    have hstaged := (Document.staged_of_parse he.playback.shelf.registry hp).2
    have hk : ∀ c ∈ o.commands, Builtin.Tells (e₂.playback.shelf e₂.env).registry c := by
      intro c hc
      rw [ho] at hc
      rw [hregistry]
      exact ⟨hd c hc, hstaged.known c hc⟩
    obtain ⟨l, n, hl, hi, ht⟩ := o.walks hb.sound.playback.shelf.registry
      (ho ▸ d.has_commands) hk (Document.block?_of_links hp ho)
      ⟨e.services.variableStore, e.services.textLog, []⟩ 0 e.services.story
    have hsize : ¬0 + o.size < d.size := by
      show ¬0 + o.commands.length < d.commands.size
      rw [ho, Array.length_toList]
      omega
    refine ⟨l, .before d (0 + o.size) false n (told.on e.services.story),
      ⟨?_, ?_, Option.some_ne_none d, hi⟩, rfl, ht⟩
    · rw [hb.standing, show e₁.services = e.services from hb.services.symm.trans hservices]
      exact hl
    · unfold Standing.next Standing.before
      simp only [if_neg hsize]
  obtain ⟨l₀, t, hpath, hservices', htrace⟩ := hpath
  have hidle : e₂.playback.standing.busy = false := by
    rw [hb.standing]
    rfl
  constructor
  · intro l hl hstop
    obtain ⟨m, r, rfl, hm, hr, -, -⟩ :=
      hpath.gets (fun i c hi => (Builtin.steady_of_tellable (hnames i c hi)).1)
        (takeAll_gets hb.sound fun i hi => (hl i hi).not_isSelect)
    have hover : (e₂.takeAll l).playback.Over := by
      rcases over_of_stopped hstop with hh | ho
      · rcases hm.halted hh with hh | hh
        · exact absurd (hb.ready.1.symm.trans hh) Bool.false_ne_true
        · exact absurd (List.mem_append_left r hh) hpath.inside.1
      · exact ho
    obtain ⟨rfl, rfl⟩ := hr.eq_of_over (Playback.next_of_over hover)
    rw [List.append_nil] at htrace
    rw [plotOf_eq hm, htrace]
    refine ⟨rfl, ?_, ?_⟩
    · exact congrArg ServiceSet.variableStore hservices'
    · exact congrArg ServiceSet.textLog hservices'
  · intro hpending delta
    refine hpath.stops _ hb.sound ⟨hb.ready.1, ?_⟩ hnames
      (fun name hc => (Standing.not_current hidle name hc).elim) (Nat.lt_succ_self _)
    show e₂.services.choicesPending = false
    rw [hservices]
    exact hpending

/-- A script in which the first branch of a block is taken. -/
def greeting : String :=
  "@set met = true\n@if met\nHello again.\n@else\nHello.\n@endif\n"

theorem exists_greeting : ∃ d, Document.parse .builtin true "greeting" greeting = .ok d ∧
    d.size = 6 ∧ ∀ c ∈ d.commands.toList, c.name ∈ Builtin.tellable := by
  have hsome : (Document.parse .builtin true "greeting" greeting).toOption.isSome = true := by
    decide +kernel
  have hcheck : ((Document.parse .builtin true "greeting" greeting).toOption.all fun d =>
      d.size == 6 && d.commands.toList.all fun c => c.name ∈ Builtin.tellable) = true := by
    decide +kernel
  cases hp : Document.parse .builtin true "greeting" greeting with
  | error err =>
    rw [hp] at hsome
    cases hsome
  | ok d =>
    rw [hp] at hcheck
    obtain ⟨hsize, hnames⟩ := Bool.and_eq_true_iff.1 hcheck
    refine ⟨d, rfl, beq_iff_eq.1 hsize, fun c hc => ?_⟩
    exact of_decide_eq_true (List.all_eq_true.1 hnames c hc)

theorem play_tells_greeting : ∃ (e e₁ e₂ : Engine) (d : Document), e.Sound ∧ d.size = 6 ∧
    e.loadScript "greeting" greeting = (e₁, .ok d) ∧ e₁.play "greeting" = (e₂, .ok ()) ∧
    ∀ delta, ∃ n, (e₂.takeAll (rounds delta n)).status = .stopped := by
  obtain ⟨e, -, hs, hr, hw, hd, hservices, -⟩ := exists_fresh
  obtain ⟨d, hp, hsize, hnames⟩ := exists_greeting
  rw [← hr, ← hw] at hp
  obtain ⟨e₁, e₂, hload, hplay, ⟨o, ho⟩, htells⟩ := play_tells hs hd hp hnames
  refine ⟨e, e₁, e₂, d, hs, hsize, hload, hplay, (htells o ho).2 ?_⟩
  rw [hservices]
  rfl

end Engine

end Playhead
