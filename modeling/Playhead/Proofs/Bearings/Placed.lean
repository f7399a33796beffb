import Playhead.Proofs.Bearings.Basic
import Playhead.Proofs.State.History

/-!
What every turn keeps: the cursor is inside the script that plays, and history is in order.
-/

namespace Playhead

namespace Bearings

/-- The cursor bears the name and the revision of the script that plays and stands at one of its
commands, unless playback is over. -/
structure Placed (b : Bearings) : Prop where
  script : ∀ d, b.document = some d → b.script = d.name ∧ b.revision = d.revision
  inside : ∀ d i, b.document = some d → b.index = some i → i < d.size
  idle : b.document = none → b.index = none

variable {registry : Registry} {w : Leeway} {b c : Bearings}

theorem placed_moveTo (b : Bearings) (d : Document) (i : Nat) : (b.moveTo d i).Placed := by
  refine ⟨fun d' h => ?_, fun d' j h hj => ?_, fun h => by cases h⟩
  · cases h
    exact ⟨rfl, rfl⟩
  · cases h
    unfold moveTo at hj
    dsimp only at hj
    split at hj
    · cases hj
      assumption
    · cases hj

theorem Placed.turn (hb : b.Placed) (h : Turn registry w b c) : c.Placed := by
  cases h with
  | @pass d i hd hi hindex ha =>
    refine ⟨hb.script, fun d' j hd' hj => ?_, fun hnone => ?_⟩
    · cases hd.symm.trans hd'
      cases hj
      exact hi
    · cases hd.symm.trans hnone
  | leave ha => exact ⟨hb.script, fun _ _ _ hi => (by cases hi), fun _ => rfl⟩
  | @move d hd i hindex ha => exact b.placed_moveTo d i
  | @restart d hd i ha hs =>
    have h := b.placed_moveTo d i
    exact ⟨h.script, h.inside, h.idle⟩
  | @goBack d x hd ha hx =>
    have h := b.placed_moveTo d x.spot.index
    exact ⟨h.script, h.inside, h.idle⟩
  | @load d l played hd i ha hl =>
    have h := b.placed_moveTo d i
    exact ⟨h.script, h.inside, h.idle⟩
  | _ => exact ⟨hb.script, hb.inside, hb.idle⟩

theorem Placed.turns (hb : b.Placed) (h : Turns registry w b c) : c.Placed :=
  h.keeps (fun _ _ hturn hb => hb.turn hturn) hb

/-- Unless playback is over, a script is held that has the name and the revision of the one that
plays. -/
structure Current (b : Bearings) : Prop extends Placed b where
  held : ∀ d i, b.document = some d → b.index = some i →
    ∃ d', b.library.get? d.name = some d' ∧ d'.revision = d.revision

theorem Current.turn (hb : b.Current) (h : Turn registry w b c) : c.Current := by
  have hplaced := hb.toPlaced.turn h
  cases h with
  | @pass d i hd hi hindex ha =>
    refine ⟨hplaced, fun d' j hd' _ => ?_⟩
    obtain ⟨j, hj⟩ := Option.ne_none_iff_exists'.1 hindex
    exact hb.held d' j hd' hj
  | leave ha => exact ⟨hplaced, fun _ _ _ hi => by cases hi⟩
  | @move d hd i hindex ha =>
    refine ⟨hplaced, fun d' j hd' _ => ?_⟩
    cases hd'
    rcases hd with hd | hd
    · obtain ⟨j, hj⟩ := Option.ne_none_iff_exists'.1 hindex
      exact hb.held d j hd hj
    · exact ⟨d, hd, rfl⟩
  | @restart d hd | @goBack d x hd | @load d l played hd =>
    refine ⟨hplaced, fun d' j hd' _ => ?_⟩
    cases hd'
    exact ⟨d, hd, rfl⟩
  | read hk =>
    refine ⟨hplaced, fun d i hd hi => ?_⟩
    obtain ⟨d', hd', hrevision⟩ := hb.held d i hd hi
    exact ⟨d', hk.held d.name d' hd', hrevision⟩
  | @reread k hw hk hheld hadded hsame =>
    refine ⟨hplaced, fun d i hd hi => ?_⟩
    obtain ⟨d', hd', hrevision⟩ := hb.held d i hd hi
    have hsome : b.library.get? d.name ≠ none := hd' ▸ Option.some_ne_none d'
    obtain ⟨d'', hd''⟩ := Option.ne_none_iff_exists'.1 (hheld d.name hsome)
    obtain ⟨hscript, hcursor⟩ := hb.script d hd
    refine ⟨d'', hd'', ?_⟩
    rcases hsame with hnone | hnone | hsame
    · cases hd.symm.trans hnone
    · cases hi.symm.trans hnone
    · rcases hsame d'' (hscript ▸ hd'') with hget | hget
      · rw [hscript, hd'] at hget
        cases hget
        exact hrevision
      · exact hget.trans hcursor
  | _ => exact ⟨hplaced, hb.held⟩

theorem Current.turns (hb : b.Current) (h : Turns registry w b c) : c.Current :=
  h.keeps (fun _ _ hturn hb => hb.turn hturn) hb

theorem placed_of_document (hd : b.document = none) (hi : b.index = none) : b.Placed :=
  ⟨fun d h => (by cases hd.symm.trans h), fun d i h => (by cases hd.symm.trans h), fun _ => hi⟩

theorem current_of_document (hd : b.document = none) (hi : b.index = none) : b.Current :=
  ⟨placed_of_document hd hi, fun d _ h => by cases hd.symm.trans h⟩

/-- Unless scripts are read anew, playback stays in its script or comes to one that is held. -/
theorem Turns.document (h : Turns registry w b c) (hw : ¬w.rereads) :
    ∀ d, c.document = some d → b.document = some d ∨ c.library.get? d.name = some d := by
  refine h.keeps (I := fun c => ∀ d, c.document = some d →
    b.document = some d ∨ c.library.get? d.name = some d) (fun c c' hturn hc => ?_)
    fun _ hd => .inl hd
  cases hturn with
  | move hd =>
    intro d' h
    cases h
    exact hd.elim (hc _) .inr
  | restart hd | goBack hd | load hd =>
    intro d' h
    cases h
    exact .inr hd
  | read hk => exact fun d h => (hc d h).imp_right (hk.held d.name d)
  | reread hw' => exact absurd hw' hw
  | _ => exact hc

/-- Unless scripts are read anew, the script that plays is held. -/
theorem Turns.holds_document (h : Turns registry w b c) (hw : ¬w.rereads)
    (hb : ∀ d, b.document = some d → b.library.get? d.name = some d) :
    ∀ d, c.document = some d → c.library.get? d.name = some d := fun d hd =>
  (h.document hw d hd).elim (fun hd => h.held hw (hb d hd)) id

/-- There is room for all snapshots, and each was captured before playback came to where it is. A
command in flight was started after all of them. -/
structure Timely (b : Bearings) : Prop where
  size : b.stack.size ≤ b.stack.depth
  earlier : ∀ x ∈ b.stack.snapshots, x.played ≤ b.played
  started : ∀ x ∈ b.stack.snapshots, b.active ≠ none → x.played < b.played

theorem timely_of_idle (hs : b.stack.size ≤ b.stack.depth)
    (he : ∀ x ∈ b.stack.snapshots, x.played ≤ b.played) (ha : b.active = none) : b.Timely :=
  ⟨hs, he, fun _ _ h => absurd ha h⟩

/-- History stays timely if no snapshots are taken up that were captured later than the position
they are taken up with. -/
theorem Timely.turn (hw : ∀ l played, w.loads l played → ∀ x ∈ l, x.played ≤ played)
    (hb : b.Timely) (hr : Retained b.stack.snapshots) (h : Turn registry w b c) : c.Timely := by
  cases h with
  | start | fault =>
    exact ⟨hb.size, fun x hx => Nat.le_succ_of_le (hb.earlier x hx),
      fun x hx _ => Nat.lt_succ_of_le (hb.earlier x hx)⟩
  | work ha ht =>
    exact ⟨hb.size, hb.earlier, fun x hx _ => hb.started x hx (ha ▸ Option.some_ne_none _)⟩
  | drop => exact timely_of_idle hb.size hb.earlier rfl
  | restart hd i ha hs =>
    refine timely_of_idle hb.size (fun x hx => ?_) ha
    change x ∈ b.stack.snapshots at hx
    rw [hs] at hx
    cases hx
  | @goBack d x hd ha hx =>
    refine timely_of_idle hb.size (fun y hy => ?_) ha
    exact RollbackStack.played_le_newest hr.ordered hx hy
  | @load d l played hd i ha hl =>
    refine timely_of_idle (b.stack.size_replace l) (fun x hx => ?_) ha
    exact hw l played hl x (RollbackStack.mem_replace hx)
  | @capture x ha hx hp =>
    refine timely_of_idle ?_ (fun y hy => ?_) ha
    · rw [show (b.stack.push x).1.depth = b.stack.depth from b.stack.depth_push x]
      exact RollbackStack.size_push hb.size
    · rcases RollbackStack.mem_push hy with hy | rfl
      · exact hb.earlier y hy
      · exact hp.le
  | allow on =>
    have hplayed : ∀ x ∈ (b.stack.allowNewest on).snapshots,
        ∃ y ∈ b.stack.snapshots, x.played = y.played := by
      intro x hx
      have hmem := List.mem_map_of_mem (f := Snapshot.played) hx
      rw [RollbackStack.map_played_allowNewest] at hmem
      obtain ⟨y, hy, h⟩ := List.mem_map.1 hmem
      exact ⟨y, hy, h.symm⟩
    refine ⟨?_, fun x hx => ?_, fun x hx ha => ?_⟩
    · show (RollbackStack.modifyLast _ b.stack.snapshots).length ≤ b.stack.depth
      rw [RollbackStack.length_modifyLast]
      exact hb.size
    · obtain ⟨y, hy, h⟩ := hplayed x hx
      exact h ▸ hb.earlier y hy
    · obtain ⟨y, hy, h⟩ := hplayed x hx
      exact h ▸ hb.started y hy ha
  | clear =>
    exact ⟨Nat.zero_le _, fun _ h => absurd h List.not_mem_nil,
      fun _ h => absurd h List.not_mem_nil⟩
  | cut position =>
    have hsub := List.take_sublist (position + 1) b.stack.snapshots
    exact ⟨hsub.length_le.trans hb.size, fun x hx => hb.earlier x (hsub.subset hx),
      fun x hx => hb.started x (hsub.subset hx)⟩
  | resize depth =>
    have hsub := List.drop_sublist (b.stack.size - depth) b.stack.snapshots
    refine ⟨?_, fun x hx => hb.earlier x (hsub.subset hx),
      fun x hx => hb.started x (hsub.subset hx)⟩
    show (b.stack.snapshots.drop (b.stack.size - depth)).length ≤ depth
    rw [List.length_drop]
    show b.stack.size - (b.stack.size - depth) ≤ depth
    omega
  | _ => exact ⟨hb.size, hb.earlier, hb.started⟩

end Bearings

/-- History stays in order if only snapshots that pass their own check are taken up. -/
theorem Retained.turns {registry : Registry} {w : Leeway} {b c : Bearings}
    (hw : ∀ l played, w.loads l played → ∀ x ∈ l, x.verify = .ok ())
    (hb : Retained b.stack.snapshots) (h : Bearings.Turns registry w b c) :
    Retained c.stack.snapshots := by
  refine h.keeps (I := fun b => Retained b.stack.snapshots) (fun b c hturn hb => ?_) hb
  cases hturn with
  | load hd i ha hl => exact RollbackStack.retained_replace _ (hw _ _ hl)
  | capture ha hx hp => exact RollbackStack.retained_push hb hx
  | allow on => exact RollbackStack.retained_allowNewest hb on
  | clear => exact .nil
  | cut position => exact hb.sublist (List.take_sublist _ _)
  | resize depth => exact hb.sublist (List.drop_sublist _ _)
  | _ => exact hb

end Playhead
