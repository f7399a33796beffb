import Playhead.Proofs.Engine.Derail
import Playhead.Proofs.Engine.Selection
import Playhead.Proofs.Script.Labels

/-!
The check of jump targets is exact: what it says of a script when that is read is what becomes of
the jumps when the script plays.

The table that the check looks labels up in is the one that jumps are resolved by. That the jump in
flight is one of a command of the script that plays holds of every move of playback, since no jump
stays in flight from one tick to the next.
-/

namespace Playhead

/-- Whether a target is in a script: its script is the same, or none is named. -/
def JumpTarget.Inside (target : JumpTarget) (script : String) : Prop :=
  ∃ other label, target = .label other label ∧ (other = none ∨ other = some script)

/-- Whether a command is a jump or an option with a target of this text. -/
def Command.LeadsTo (c : Command) (text : String) : Prop :=
  (c.name = "goto" ∨ c.name = "gosub") ∧ c.text "target" = .ok (some text) ∨
    c.name = "choice" ∧ c.text "goto" = .ok (some text)

namespace Document

/-! ### The check -/

def invalidTarget (text : String) : String :=
  "invalid jump target `" ++ text ++ "`"

def unknownLabel (label : String) : String :=
  "unknown label `" ++ label ++ "`"

theorem invalidTarget_ne_unknownLabel (text label : String) :
    invalidTarget text ≠ unknownLabel label := by
  intro h
  have hchars := congrArg String.toList h
  have hinvalid : "invalid jump target `".toList = 'i' :: "nvalid jump target `".toList := rfl
  have hunknown : "unknown label `".toList = 'u' :: "nknown label `".toList := rfl
  unfold invalidTarget unknownLabel at hchars
  rw [String.toList_append, String.toList_append, String.toList_append, String.toList_append,
    hinvalid, hunknown] at hchars
  exact absurd (List.cons.inj hchars).1 (by decide)

variable {registry : Registry} {script : String} {labels : NameMap Nat} {c : Command}
  {text : String} {target : JumpTarget} {d : Document}

theorem textOf_eq {name : String} (h : c.text name = .ok (some text)) :
    Builtin.textOf name c = [text] := by
  unfold Builtin.textOf
  rw [h]

/-- What the check says of a command is what it says of its target. -/
theorem checkTargets_eq (hr : registry.Sound) (hc : c.LeadsTo text) :
    checkTargets registry script labels c =
      (checkTarget script labels text).toList.map (Script.Diagnostic.mk c.spot.line) := by
  have htargets : ∃ h, registry.get? c.name = some h ∧ h.targets c = [text] := by
    obtain ⟨hname | hname, htext⟩ | ⟨hname, htext⟩ := hc
    · exact ⟨Builtin.goto, hname ▸ hr.builtin Builtin.goto (by simp [Builtin.handlers]),
        textOf_eq htext⟩
    · exact ⟨Builtin.gosub, hname ▸ hr.builtin Builtin.gosub (by simp [Builtin.handlers]),
        textOf_eq htext⟩
    · exact ⟨Builtin.choice, hname ▸ hr.builtin Builtin.choice (by simp [Builtin.handlers]),
        textOf_eq htext⟩
  obtain ⟨h, hh, htext⟩ := htargets
  unfold checkTargets
  rw [hh]
  dsimp only
  rw [htext]
  cases h : checkTarget script labels text <;> simp [h]

theorem mem_checkTargets (hr : registry.Sound) (hc : c.LeadsTo text) (message : String) :
    ⟨c.spot.line, message⟩ ∈ checkTargets registry script labels c ↔
      checkTarget script labels text = some message := by
  rw [checkTargets_eq hr hc]
  cases checkTarget script labels text <;> simp [eq_comm]

/-- A target is called invalid if it cannot be read. -/
theorem checkTarget_eq_invalidTarget :
    checkTarget script labels text = some (invalidTarget text) ↔
      JumpTarget.parse? text = none := by
  unfold checkTarget
  constructor
  · intro h
    split at h
    · assumption
    · split at h
      · exact absurd (Option.some.inj h).symm (invalidTarget_ne_unknownLabel _ _)
      · cases h
    · cases h
  · intro h
    rw [h]
    rfl

/-- A label is called unknown if it is looked for in this script and not there. -/
theorem checkTarget_eq_unknownLabel (hinside : target.Inside script)
    (hread : JumpTarget.parse? text = some target) :
    (∃ label, checkTarget script labels text = some (unknownLabel label)) ↔
      ∃ other label, target = .label other (some label) ∧ labels.get? label = none := by
  obtain ⟨other, label, rfl, hother⟩ := hinside
  have hhere : (other = none || other = some script) = true := by simpa using hother
  unfold checkTarget
  rw [hread]
  cases label with
  | none => simp
  | some label =>
    dsimp only
    cases hget : labels.get? label with
    | none =>
      have hunknown : (!labels.contains label) = true := by simp [NameMap.contains, hget]
      rw [if_pos (by rw [hhere, hunknown]; rfl)]
      simp [unknownLabel, hget]
    | some index =>
      have hknown : (!labels.contains label) = false := by simp [NameMap.contains, hget]
      rw [if_neg (by rw [hhere, hknown]; decide)]
      simp [hget]

/-- A jump inside the script that plays fails if it is to a label that the script does not know. -/
theorem resolveJump_error_iff (env : Env) {p : Playback} (hd : p.player.document = some d)
    (hinside : target.Inside d.name) :
    (∃ why, (p.resolveJump env target).2 = .error why) ↔
      ∃ other label, target = .label other (some label) ∧ d.labelIndex? label = none := by
  obtain ⟨other, label, rfl, hother⟩ := hinside
  rw [Playback.resolveJump_here env hd hother]
  cases label with
  | none => simp
  | some label => cases hindex : d.labelIndex? label <;> simp [hindex]

end Document

/-- A script of which the check of jump targets has nothing to say. -/
def Document.Aims (d : Document) : Prop :=
  ∀ x ∈ d.diagnostics, ∀ text,
    x.message ≠ invalidTarget text ∧ x.message ≠ unknownLabel text

/-! ### Jumps in flight -/

/-- A jump completes or faults at its first step. -/
theorem Task.ne_jump_of_suspended {t u : Task} {ctx : Context} {s s' : ServiceSet}
    {why : Suspension} (h : t.step ctx s = (.suspended u why, s')) (target : JumpTarget)
    (returning : Bool) : u ≠ .jump target returning := by
  rintro rfl
  by_cases hhost : t.IsHost
  · cases t with
    | host t =>
      simp only [step, stepHost] at h
      split at h <;> cases h
    | _ => cases hhost
  · obtain ⟨w, hw⟩ := exists_wait_of_suspended hhost h
    cases hw

namespace Bearings

/-- A jump in flight is the one of the command at its index in the script that plays. -/
def Boarded (registry : Registry) (b : Bearings) : Prop :=
  ∀ a target returning, b.active = some a → a.task = .jump target returning →
    ∃ d c h, b.document = some d ∧ d.command? a.index = some c ∧
      registry.get? c.name = some h ∧ h.begin c = .ok a.task

variable {registry : Registry} {w : Leeway} {b c : Bearings}

theorem boarded_of_idle (h : b.active = none) : b.Boarded registry :=
  fun a _ _ ha => by cases h.symm.trans ha

theorem Boarded.turn (hw : ¬w.veers) (hb : b.Boarded registry) (h : Turn registry w b c) :
    c.Boarded registry := by
  cases h with
  | @start d i cmd h task hd hi ha hc hr ht =>
    intro a target returning hactive _
    cases hactive
    exact ⟨d, cmd, h, hd, hc, hr, ht⟩
  | @work a task ctx s s' why ha ht =>
    intro a' target returning hactive htask
    cases hactive
    exact absurd htask (Task.ne_jump_of_suspended ht target returning)
  | drop => exact boarded_of_idle rfl
  | fault ha | pass hd hi hb ha | leave ha | restart hd i ha | goBack hd ha | load hd i ha =>
    exact boarded_of_idle ha
  | move hd i hb ha => exact boarded_of_idle (ha.resolve_right hw)
  | _ => exact hb

end Bearings

namespace Playback

/-- No jump is in flight. -/
def Landed (p : Playback) : Prop :=
  ∀ a target returning, p.player.active = some a → a.task ≠ .jump target returning

theorem landed_of_idle {p : Playback} (h : p.player.active = none) : p.Landed :=
  fun a _ _ ha => by cases h.symm.trans ha

theorem Landed.congr {p q : Playback} (hp : p.Landed)
    (h : q.player.active = p.player.active) : q.Landed :=
  fun a target returning ha => hp a target returning (h ▸ ha)

theorem endures_landed (env : Env) : Endures env Landed where
  idle := landed_of_idle
  leave := fun {p} delta hp => hp.congr (Stays.leaveWait env p delta).active
  suspend _ hstep := by
    rintro a target returning ⟨⟩
    exact Task.ne_jump_of_suspended hstep target returning

end Playback

/-- A move that steps a `goto` or `gosub` of a script that plays. -/
def Playback.Move.Leaps (m : Playback.Move) (d : Document) (target : JumpTarget) : Prop :=
  ∃ a c returning, m.before.player.document = some d ∧ m.before.player.active = some a ∧
    a.task = .jump target returning ∧ d.command? a.index = some c ∧
    (c.name = "goto" ∨ c.name = "gosub")

/-- An option of a script with a jump target of this text. -/
def ChoiceOption.Of (o : ChoiceOption) (d : Document) (text : String) : Prop :=
  o.goto = some text ∧
    ∃ c ∈ d.commands.toList, c.name = "choice" ∧ c.text "goto" = .ok (some text)

namespace Engine

open Playback (Move Sited)

variable {e e₀ u : Engine} {op : Operation} {l : List Move}

/-- No act leaves a jump in flight. -/
theorem landed_act (he : e.playback.Landed) (h : Act op e₀ e l u) : u.playback.Landed := by
  cases h with
  | play hs hpath hkept => exact hkept _ (Playback.endures_landed e.env) he
  | guide hguide =>
    rcases hguide.active with hsame | hidle
    · exact he.congr hsame
    · exact Playback.landed_of_idle hidle
  | drop =>
    exact Playback.landed_of_idle (congrArg Bearings.active e.playback.bearings_cancelActive)
  | rewrite h | turn delta | reap | queue d scope => exact he
  | aside hp hr ht => exact hp ▸ he

theorem registry_act (h : Act op e₀ e l u) : u.registry = e.registry := by
  cases h with
  | aside hp hr ht => exact hr
  | _ => rfl

theorem Reachable.landed (h : e.Reachable) : e.playback.Landed := by
  induction h with
  | build h =>
    obtain ⟨registry, services, -, -, -, rfl⟩ := build_eq_ok h
    exact Playback.landed_of_idle rfl
  | perform h op ih =>
    exact ((perform_acts h.sited op).keeps (J := fun _ e => e.playback.Landed)
      (K := fun _ _ => True)
      (fun _ _ _ _ hact he => ⟨landed_act he hact, fun _ _ _ _ => trivial⟩) (H := []) ih).1
  | supply h resources files ih => exact ih

/-- A jump that is stepped in any operation is one of the script that plays. -/
theorem Reachable.boarded (h : e.Reachable) (op : Operation) :
    ∀ m ∈ e.moves op, m.before.bearings.Boarded e.registry := by
  have hkeeps := (perform_acts h.sited op).keeps
    (J := fun _ u => u.playback.Landed ∧ u.registry = e.registry)
    (K := fun m _ => m.before.bearings.Boarded e.registry) (fun H u l v hact hu => ?_)
    (H := []) ⟨h.landed, rfl⟩
  · intro m hm
    obtain ⟨earlier, later, heq⟩ := List.append_of_mem hm
    exact hkeeps.2 earlier m later heq
  · refine ⟨⟨landed_act hu.1 hact, (registry_act hact).trans hu.2⟩, ?_⟩
    cases hact with
    | play hs hpath hkept =>
      have hstart : u.playback.bearings.Boarded u.registry := fun a target returning ha htask =>
        absurd htask (hu.1 a target returning ha)
      obtain ⟨-, hall⟩ := hpath.along_keeps
        (J := fun _ p => Sited u.env p ∧ p.bearings.Boarded u.registry)
        (fun H p q hstep hp => ⟨hp.1.step hstep,
          (hstep.turns hp.1.registry hp.1.read).keeps (w := .none)
            (fun _ _ hturn hb => hb.turn id hturn) hp.2⟩) (H := []) ⟨hs, hstart⟩
      intro earlier m later heq
      exact hu.2 ▸ (hall earlier m later heq).2.2
    | _ => exact fun earlier m later heq => by simp at heq

/-! ### Jumps that lead somewhere -/

variable {registry : Registry} {wait : Bool} {name source text : String} {d : Document}
  {target : JumpTarget} {index : Nat} {o : ChoiceOption} {e' : Engine} {err : EngineError}

open Document (checkTargets invalidTarget unknownLabel)

/-- What the check says of a jump of a script is what becomes of it while the script plays. -/
theorem check_command (hr : registry.Sound) (h : Document.parse registry wait name source = .ok d)
    {c : Command} (hc : c ∈ d.commands.toList) (hleads : c.LeadsTo text) :
    (∀ x ∈ checkTargets registry name d.labels c, x ∈ d.diagnostics) ∧
      (⟨c.spot.line, invalidTarget text⟩ ∈ checkTargets registry name d.labels c ↔
        JumpTarget.parse? text = none) ∧
      ∀ target, JumpTarget.parse? text = some target → target.Inside name →
        ∀ env (p : Playback), p.player.document = some d →
          ((∃ label, ⟨c.spot.line, unknownLabel label⟩ ∈ checkTargets registry name d.labels c) ↔
            ∃ why, (p.resolveJump env target).2 = .error why) := by
  obtain ⟨draft, -, hcommands, hname, -, -, hlabels, htold⟩ := Document.parse_eq_ok h
  refine ⟨fun x hx => ?_, ?_, fun target hread hinside env p hp => ?_⟩
  · refine htold x (List.mem_flatMap.2 ⟨c, hcommands ▸ hc, ?_⟩)
    rwa [hlabels] at hx
  · rw [Document.mem_checkTargets hr hleads, Document.checkTarget_eq_invalidTarget]
  · rw [Document.resolveJump_error_iff env hp (hname.symm ▸ hinside)]
    simp only [Document.mem_checkTargets hr hleads]
    exact Document.checkTarget_eq_unknownLabel hinside hread

theorem resolves_of_aims (hr : registry.Sound)
    (h : Document.parse registry wait name source = .ok d) (haims : d.Aims) {c : Command}
    (hc : c ∈ d.commands.toList) (hleads : c.LeadsTo text)
    (hread : JumpTarget.parse? text = some target) (hinside : target.Inside name) (env : Env)
    {p : Playback} (hp : p.player.document = some d) (why : JumpError) :
    (p.resolveJump env target).2 ≠ .error why := by
  intro hwhy
  obtain ⟨htold, -, hunknown⟩ := check_command hr h hc hleads
  obtain ⟨label, hlabel⟩ := (hunknown target hread hinside env p hp).2 ⟨why, hwhy⟩
  exact (haims _ (htold _ hlabel) label).2 rfl

/-- A jump of the script that plays leads where its text says. -/
theorem Reachable.leap_read (he : e.Reachable) (hr : e.registry.Sound) {op : Operation} {m : Move}
    (hm : m ∈ e.moves op) (hleaps : m.Leaps d target) :
    ∃ c ∈ d.commands.toList, ∃ text, c.LeadsTo text ∧ JumpTarget.parse? text = some target := by
  obtain ⟨a, c, returning, hd, ha, htask, hc, hname⟩ := hleaps
  obtain ⟨d', c', h', hd', hc', hget, hbegin⟩ :=
    he.boarded op m hm a target returning ha htask
  obtain rfl : d' = d := Option.some.inj (hd'.symm.trans hd)
  obtain rfl : c' = c := Option.some.inj (hc'.symm.trans hc)
  have hgoto : e.registry.get? "goto" = some Builtin.goto :=
    hr.builtin Builtin.goto (by simp [Builtin.handlers])
  have hgosub : e.registry.get? "gosub" = some Builtin.gosub :=
    hr.builtin Builtin.gosub (by simp [Builtin.handlers])
  have hjump : ∃ back, Builtin.beginJump back c' = .ok (.jump target returning) := by
    rw [← htask]
    obtain hname | hname := hname
    · cases (hname ▸ hget).symm.trans hgoto
      exact ⟨false, hbegin⟩
    · cases (hname ▸ hget).symm.trans hgosub
      exact ⟨true, hbegin⟩
  obtain ⟨back, hjump⟩ := hjump
  obtain ⟨text, target', htext, hread, htarget⟩ := Builtin.beginJump_eq_ok_iff.1 hjump
  cases htarget
  exact ⟨c', Document.mem_of_command? hc, text, .inl ⟨hname, htext⟩, hread⟩

theorem choiceDestination_of_resolves (index : Nat) (hgoto : o.goto = some text)
    (hread : JumpTarget.parse? text = some target)
    (hresolves : ∀ why, (e.playback.resolveJump e.env target).2 ≠ .error why) :
    ∃ u destination, e.choiceDestination index o.goto = (u, .ok destination) := by
  unfold choiceDestination
  rw [hgoto]
  dsimp only
  rw [hread]
  dsimp only
  generalize e.playback.resolveJump e.env target = r at hresolves ⊢
  obtain ⟨p, why | destination⟩ := r
  · exact absurd rfl (hresolves why)
  · exact ⟨_, _, rfl⟩

/-- A selection whose option leads somewhere fails at the option's script at most. -/
theorem unreadable_of_destination {u : Engine} {destination : Option (Document × Nat)}
    (hrun : e.player.isRunning = true) (ho : e.services.pendingChoices[index]? = some o)
    (hgoto : e.choiceDestination index o.goto = (u, .ok destination))
    (h : (e.selectChoice index).2 = .error err) : e.Unreadable o err := by
  obtain ⟨-, -, hregistry, hwait⟩ := choiceDestination_ok hgoto
  unfold selectChoice at h
  rw [if_neg (by rw [hrun]; decide), ho] at h
  dsimp only at h
  rw [hgoto] at h
  dsimp only at h
  generalize hscript : Engine.startChoiceScript _ o = r at h
  obtain ⟨v, why | _⟩ := r
  · cases h
    have hunreadable : u.Unreadable o err :=
      (startChoiceScript_applyChoiceSet_error hscript).2.1
    unfold Unreadable at hunreadable
    rwa [hregistry, hwait] at hunreadable
  · dsimp only at h
    split at h <;> cases h

/-- The check of jump targets is exact. It calls a target invalid that cannot be read, and a label
of the script itself unknown where the jump fails while the script plays. So no jump of a script
that it has nothing to say of fails inside the script, be it stepped in an operation or selected. -/
theorem check_exact (hr : registry.Sound)
    (h : Document.parse registry wait name source = .ok d) :
    (∀ c ∈ d.commands.toList, ∀ text, c.LeadsTo text →
      (∀ x ∈ checkTargets registry name d.labels c, x ∈ d.diagnostics) ∧
      (⟨c.spot.line, invalidTarget text⟩ ∈ checkTargets registry name d.labels c ↔
        JumpTarget.parse? text = none) ∧
      ∀ target, JumpTarget.parse? text = some target → target.Inside name →
        ∀ env (p : Playback), p.player.document = some d →
          ((∃ label, ⟨c.spot.line, unknownLabel label⟩ ∈ checkTargets registry name d.labels c) ↔
            ∃ why, (p.resolveJump env target).2 = .error why)) ∧
    (d.Aims →
      (∀ (e : Engine) op m env target why, e.Reachable → e.registry = registry → m ∈ e.moves op →
        m.Derails env target why → m.Leaps d target → ¬ target.Inside name) ∧
      ∀ (e : Engine) index o text target err, e.player.isRunning = true →
        e.player.document = some d → e.services.pendingChoices[index]? = some o → o.Of d text →
        JumpTarget.parse? text = some target → target.Inside name →
        (e.selectChoice index).2 = .error err → e.Unreadable o err) := by
  refine ⟨fun c hc text hleads => check_command hr h hc hleads, fun haims => ⟨?_, ?_⟩⟩
  · intro e op m env target why he hregistry hm hderails hleaps hinside
    obtain ⟨c, hc, text, hleads, hread⟩ := he.leap_read (hregistry ▸ hr) hm hleaps
    obtain ⟨a, -, -, hd, -⟩ := hleaps
    exact resolves_of_aims hr h haims hc hleads hread hinside env hd why hderails.unresolved
  · intro e index o text target err hrun hd ho ⟨hgoto, c, hc, hname, htext⟩ hread hinside herr
    have hresolves := resolves_of_aims hr h haims hc (.inr ⟨hname, htext⟩) hread hinside e.env
      (p := e.playback) hd
    obtain ⟨u, destination, hdestination⟩ :=
      choiceDestination_of_resolves index hgoto hread hresolves
    exact unreadable_of_destination hrun ho hdestination herr

/-- A jump to a label that is not there, one to a label of the script by its name, and an option
that leads nowhere. -/
def straying : String :=
  "@goto .Missing\n@gosub tale.Home\n@choice Away goto:.\n# Home\n"

/-- A jump and an option within the script and a jump to another one. -/
def aiming : String :=
  "@gosub .Home\n@choice Away goto:tale.Home\n# Home\n@goto other\n"

theorem check_exact_straying :
    (∃ d, Document.parse .builtin true "tale" straying = .ok d ∧
      ⟨1, unknownLabel "Missing"⟩ ∈ d.diagnostics ∧ ⟨3, invalidTarget "."⟩ ∈ d.diagnostics ∧
      ∀ env (p : Playback), p.player.document = some d →
        (∃ why, (p.resolveJump env (.label none (some "Missing"))).2 = .error why) ∧
        ∀ why, (p.resolveJump env (.label (some "tale") (some "Home"))).2 ≠ .error why) ∧
    ∃ d, Document.parse .builtin true "tale" aiming = .ok d ∧ d.Aims ∧
      ∀ (e : Engine) op m target why, e.Reachable → e.registry = .builtin → m ∈ e.moves op →
        m.Derails e.env target why → m.Leaps d target → ¬ target.Inside "tale" := by
  have hr : Registry.builtin.Sound := sound_registerAll (l := []) rfl
  constructor
  · have hrun : ((Document.parse .builtin true "tale" straying).toOption.any fun d =>
        ((d.command? 0).any fun c => c.name = "goto" ∧ c.spot.line = 1 ∧
          c.text "target" = .ok (some ".Missing") ∧
          ⟨1, unknownLabel "Missing"⟩ ∈ checkTargets .builtin "tale" d.labels c) ∧
        ((d.command? 1).any fun c => c.name = "gosub" ∧
          c.text "target" = .ok (some "tale.Home") ∧
          checkTargets .builtin "tale" d.labels c = []) ∧
        (d.command? 2).any fun c => c.name = "choice" ∧ c.spot.line = 3 ∧
          c.text "goto" = .ok (some ".")) = true := by
      decide +kernel
    obtain ⟨d, hd, hcheck⟩ := (Option.any_eq_true _ _).1 hrun
    obtain ⟨hfirst, hsecond, hthird⟩ := of_decide_eq_true hcheck
    obtain ⟨c₁, hc₁, hcheck⟩ := (Option.any_eq_true _ _).1 hfirst
    obtain ⟨hname₁, hline₁, htext₁, htold₁⟩ := of_decide_eq_true hcheck
    obtain ⟨c₂, hc₂, hcheck⟩ := (Option.any_eq_true _ _).1 hsecond
    obtain ⟨hname₂, htext₂, hsilent₂⟩ := of_decide_eq_true hcheck
    obtain ⟨c₃, hc₃, hcheck⟩ := (Option.any_eq_true _ _).1 hthird
    obtain ⟨hname₃, hline₃, htext₃⟩ := of_decide_eq_true hcheck
    have hparse := eq_ok_of_toOption hd
    obtain ⟨htold, -, hmissing⟩ :=
      (check_exact hr hparse).1 c₁ (Document.mem_of_command? hc₁) _ (.inl ⟨.inl hname₁, htext₁⟩)
    obtain ⟨-, -, hhome⟩ :=
      (check_exact hr hparse).1 c₂ (Document.mem_of_command? hc₂) _ (.inl ⟨.inr hname₂, htext₂⟩)
    obtain ⟨htold₃, hinvalid, -⟩ :=
      (check_exact hr hparse).1 c₃ (Document.mem_of_command? hc₃) _ (.inr ⟨hname₃, htext₃⟩)
    refine ⟨d, hparse, htold _ htold₁, ?_, fun env p hp => ⟨?_, fun why hwhy => ?_⟩⟩
    · exact htold₃ _ (hline₃ ▸ hinvalid.2 (by decide))
    · exact (hmissing (.label none (some "Missing")) (by decide) ⟨none, _, rfl, .inl rfl⟩ env p
        hp).1 ⟨"Missing", hline₁ ▸ htold₁⟩
    · obtain ⟨label, hlabel⟩ := (hhome (.label (some "tale") (some "Home")) (by decide)
        ⟨some "tale", _, rfl, .inr rfl⟩ env p hp).2 ⟨why, hwhy⟩
      rw [hsilent₂] at hlabel
      cases hlabel
  · have hrun : ((Document.parse .builtin true "tale" aiming).toOption.any fun d =>
        d.diagnostics = []) = true := by
      decide +kernel
    obtain ⟨d, hd, hcheck⟩ := (Option.any_eq_true _ _).1 hrun
    have hnone := of_decide_eq_true hcheck
    have hparse := eq_ok_of_toOption hd
    have haims : d.Aims := fun x hx => by
      rw [hnone] at hx
      cases hx
    exact ⟨d, hparse, haims, fun e op m target why =>
      ((check_exact hr hparse).2 haims).1 e op m e.env target why⟩

end Engine

end Playhead
