import Playhead.Playback.Transient
import Playhead.Proofs.Services.Task

/-!
What every turn of a transient script keeps: there is one induction over the turns, and a property
has to say what becomes of it when a task is stepped.
-/

namespace Playhead

/-- Whether a registry's command at some place of a script starts a task. -/
def Document.Issues (registry : Registry) (d : Document) (t : Task) : Prop :=
  ∃ c h, c ∈ d.commands ∧ registry.get? c.name = some h ∧ h.begin c = .ok t

namespace TransientRun

/-- The same script under the same handle in the same scope. -/
def Same (r r' : TransientRun) : Prop :=
  r'.handle = r.handle ∧ r'.scope = r.scope ∧ r'.document = r.document

/-- A run whose command in flight, if there is one, is of a kind. -/
def Holds (P : Task → Prop) (r : TransientRun) : Prop :=
  ∀ i t, r.active = some (i, t) → P t

/-- A run with another command in flight, or with none. -/
def carrying (r : TransientRun) (active : Option (Nat × Task)) : TransientRun :=
  { r with active := active }

/-- A property of a run and the scene it plays in that no move of the run ends. -/
structure Kept (registry : Registry) (I : TransientRun → Scene → Prop) : Prop where
  /-- The run goes on at another index. -/
  moved : ∀ r r' s, r.Same r' → r'.active = r.active → I r s → I r' s
  /-- Its command in flight is left behind. -/
  left : ∀ r s, I r s → I (r.carrying none) s
  /-- Its command in flight is dropped. -/
  dropped : ∀ r s, I r s → I (r.carrying none) { s with services := r.abandon s.services }
  reported : ∀ r s spot message, I r s → I r (s.emit (.fault spot message))
  /-- The command in flight, or one of the script that was just started, is stepped. -/
  stepped : ∀ r s i t ctx, I r s → ctx.transient = true →
    r.active = some (i, t) ∨ r.document.Issues registry t →
    match t.step ctx s.services with
    | (.suspended rest _, after) => I (r.carrying (some (i, rest))) { s with services := after }
    | (_, after) => I (r.carrying none) { s with services := after }

variable {registry : Registry} {r r' r'' : TransientRun} {s : Scene}
  {I : TransientRun → Scene → Prop} {P : Task → Prop}

theorem Same.refl (r : TransientRun) : r.Same r :=
  ⟨rfl, rfl, rfl⟩

theorem Same.trans (h : r.Same r') (h' : r'.Same r'') : r.Same r'' :=
  ⟨h'.1.trans h.1, h'.2.1.trans h.2.1, h'.2.2.trans h.2.2⟩

theorem holds_idle (h : r.active = none) : r.Holds P :=
  fun _ _ ha => by rw [h] at ha; cases ha

theorem complete_same (r : TransientRun) (i : Nat) (c : Completion) :
    r.Same (r.complete i c).1 ∧ (r.complete i c).1.active = r.active := by
  unfold complete
  split
  · exact ⟨.refl r, rfl⟩
  · exact ⟨.refl r, rfl⟩
  · exact ⟨.refl r, rfl⟩
  · split <;> exact ⟨.refl r, rfl⟩

namespace Kept

variable (hI : Kept registry I)

include hI

theorem complete (h : I r s) (i : Nat) (c : Completion) : I (r.complete i c).1 s :=
  hI.moved r _ s (r.complete_same i c).1 (r.complete_same i c).2 h

theorem step {i : Nat} {t : Task} (ht : r.active = some (i, t) ∨ r.document.Issues registry t)
    (h : I r s) (delta : Nanoseconds) : I (r.step s i t delta).1 (r.step s i t delta).2.1 := by
  unfold TransientRun.step
  dsimp only
  split
  · exact hI.left r s h
  · rename_i c hc
    have hstepped := hI.stepped r s i t ⟨c, ⟨r.document.name, i⟩, delta, false, true, false⟩ h
      rfl ht
    generalize t.step _ s.services = x at hstepped ⊢
    obtain ⟨⟨rest, why⟩ | ⟨done⟩ | ⟨f⟩, after⟩ := x
    · exact hstepped
    · exact hI.complete hstepped i done
    · exact hI.reported _ _ _ _ (hI.complete hstepped i _)

theorem run (n : Nat) (delta : Nanoseconds) (h : I r s) :
    I (run registry n delta r s).1 (TransientRun.run registry n delta r s).2.1 := by
  induction n generalizing delta r s with
  | zero => exact h
  | succ n ih =>
    have harrived : I { r with arrivedByBranch := false } s :=
      hI.moved r _ s (.refl r) rfl h
    unfold TransientRun.run
    split
    · exact h
    · rename_i c hc
      dsimp only
      split
      · exact ih delta (hI.moved r _ s (.refl r) rfl h)
      · split
        · exact ih delta (hI.reported _ _ _ _ (hI.moved r _ s (.refl r) rfl h))
        · rename_i k hk
          cases hbegin : k.begin c with
          | error f =>
            have hnext := hI.complete (hI.reported _ _ (some ⟨r.document.name, r.index⟩) f.message
              harrived) r.index (.ofFault c.role)
            dsimp only
            generalize TransientRun.complete _ r.index _ = x at hnext ⊢
            obtain ⟨r', _ | status⟩ := x
            · exact ih delta hnext
            · exact hnext
          | ok task =>
            have hmem : c ∈ r.document.commands := Array.mem_of_getElem? hc
            have hissues : r.document.Issues registry task := ⟨c, k, hmem, hk, hbegin⟩
            have hstep := hI.step (r := { r with arrivedByBranch := false }) (i := r.index)
              (.inr hissues) harrived delta
            dsimp only
            generalize TransientRun.step _ s r.index task delta = x at hstep ⊢
            obtain ⟨r', s', _ | _ | status⟩ := x
            · exact hstep
            · exact ih 0 hstep
            · exact hstep

/-- What no move of a run ends, no turn of it ends. -/
theorem advance (h : I r s) (cancelled : Bool) (delta : Nanoseconds) (budget : Nat) :
    I (r.advance registry cancelled s delta budget).1
      (r.advance registry cancelled s delta budget).2.1 := by
  unfold TransientRun.advance
  split
  · exact hI.dropped r s h
  · split
    · exact hI.run budget delta h
    · rename_i i task htask
      have hstep := hI.step (.inl htask) h delta
      generalize r.step s i task delta = x at hstep ⊢
      obtain ⟨r', s', _ | _ | status⟩ := x
      · exact hstep
      · exact hI.run budget 0 hstep
      · exact hstep

end Kept

/-- Every turn leaves a run the same, with a task of the same kind in flight. -/
theorem kept_holds (hreg : registry.Starts P) (hP : ∀ t u, t.Stems u → P t → P u)
    (r : TransientRun) : Kept registry fun r' _ => r.Same r' ∧ r'.Holds P where
  moved _ _ _ hsame hactive h := ⟨h.1.trans hsame, fun i t ha => h.2 i t (hactive ▸ ha)⟩
  left _ _ h := ⟨h.1, holds_idle rfl⟩
  dropped _ _ h := ⟨h.1, holds_idle rfl⟩
  reported _ _ _ _ h := h
  stepped r' s i t ctx h _ ht := by
    have hPt : P t := by
      rcases ht with ha | ⟨c, k, -, hk, hbegin⟩
      · exact h.2 i t ha
      · exact hreg c.name k c t hk hbegin
    cases hstep : t.step ctx s.services with
    | mk progress after =>
      cases progress with
      | suspended rest why =>
        refine ⟨h.1, fun j u hu => ?_⟩
        cases hu
        exact hP t rest (.single ⟨_, _, _, _, hstep⟩) hPt
      | _ => exact ⟨h.1, holds_idle rfl⟩

/-- What commands of a kind keep of the services, dropped or stepped beside the main script, every
turn of a run of them keeps. -/
theorem kept_services {I : ServiceSet → Prop} (hreg : registry.Starts P)
    (hP : ∀ t u, t.Stems u → P t → P u) (hcancel : ∀ t s, P t → I s → I (t.cancel s))
    (hstep : ∀ t s (ctx : Context), P t → ctx.transient = true → I s → I (t.step ctx s).2) :
    Kept registry fun r s => r.Holds P ∧ I s.services where
  moved _ _ _ _ hactive h := ⟨fun i t ha => h.1 i t (hactive ▸ ha), h.2⟩
  left _ _ h := ⟨holds_idle rfl, h.2⟩
  dropped r s h := by
    refine ⟨holds_idle rfl, ?_⟩
    unfold TransientRun.abandon
    split
    · rename_i i t ha
      exact hcancel t _ (h.1 i t ha) h.2
    · exact h.2
  reported _ _ _ _ h := h
  stepped r s i t ctx h hctx ht := by
    have hPt : P t := by
      rcases ht with ha | ⟨c, k, -, hk, hbegin⟩
      · exact h.1 i t ha
      · exact hreg c.name k c t hk hbegin
    have hafter := hstep t _ ctx hPt hctx h.2
    cases hstepped : t.step ctx s.services with
    | mk progress after =>
      rw [hstepped] at hafter
      cases progress with
      | suspended rest why =>
        refine ⟨fun j u hu => ?_, hafter⟩
        cases hu
        exact hP t rest (.single ⟨_, _, _, _, hstepped⟩) hPt
      | _ => exact ⟨holds_idle rfl, hafter⟩

/-- Runs do no more to a scene than write to the services and report faults. -/
theorem kept_scene {Q : Scene → Prop}
    (hwrite : ∀ s services, Q s → Q { s with services := services })
    (hfault : ∀ s spot message, Q s → Q (s.emit (.fault spot message))) :
    Kept registry fun _ s => Q s where
  moved _ _ _ _ _ h := h
  left _ _ h := h
  dropped _ s h := hwrite s _ h
  reported _ s spot message h := hfault s spot message h
  stepped _ s _ t ctx h _ _ := by
    cases t.step ctx s.services with
    | mk progress after => cases progress <;> exact hwrite s after h

end TransientRun

end Playhead
