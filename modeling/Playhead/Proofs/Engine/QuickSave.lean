import Playhead.Proofs.Engine.Acts
import Playhead.Proofs.Engine.Loading

/-!
Saving under the name that the configuration gives.

Main statement: as long as playback is not over, an engine whose services are the built-in ones and
whose slots are in memory saves there exactly if the name is one of a slot. A configuration with
another name is accepted all the same.
-/

namespace Playhead

namespace SaveSlots

variable {v : SaveSlots} {files : FileTree} {scope : StateScope} {slot : String} {map : StateMap}

def InMemory (v : SaveSlots) : Prop :=
  ∃ slots, v = .memory slots

theorem InMemory.save (hv : v.InMemory) : (v.save files scope slot map).2.1.InMemory := by
  obtain ⟨slots, rfl⟩ := hv
  unfold SaveSlots.save
  split
  · exact ⟨_, rfl⟩
  · exact ⟨_, rfl⟩

theorem InMemory.delete (hv : v.InMemory) : (v.delete files scope slot).2.1.InMemory := by
  obtain ⟨slots, rfl⟩ := hv
  unfold SaveSlots.delete
  split
  · exact ⟨_, rfl⟩
  · exact ⟨_, rfl⟩

theorem save_refused (h : isSlot slot = false) :
    v.save files scope slot map = (files, v, .error (.invalidSlot slot)) := by
  have hcheck : checkSlot slot = .error (.invalidSlot slot) := if_neg (by simp [h])
  unfold SaveSlots.save
  rw [hcheck]

theorem InMemory.save_ok (hv : v.InMemory) (h : isSlot slot = true) (files : FileTree)
    (map : StateMap) :
    ∃ v', v.save files .game slot map = (files, v', .ok ()) ∧ v'.Stores slot map := by
  obtain ⟨slots, rfl⟩ := hv
  have hcheck : checkSlot slot = .ok () := if_pos h
  have hsave : (SaveSlots.memory slots).save files .game slot map =
      (files, .memory (slots.set .game ((slots.get .game).insert slot map)), .ok ()) := by
    unfold SaveSlots.save
    rw [hcheck]
  have hstores := stores_save rfl (congrArg (·.2.2) hsave)
  rw [hsave] at hstores
  exact ⟨_, hsave, hstores⟩

theorem Stores.mem_list (h : v.Stores slot map) (files : FileTree) :
    ∃ l, v.list files .game = .ok l ∧ slot ∈ l := by
  obtain ⟨slots, rfl, -, hget⟩ := h
  refine ⟨_, rfl, ?_⟩
  exact List.mem_map.2 ⟨(slot, map), NameMap.get?_eq_some_iff.1 hget, rfl⟩

end SaveSlots

/-- Built-in services can be recorded in every state. -/
theorem ServiceSet.exists_collect {s : ServiceSet} (hhost : s.host = []) (scope : StateScope) :
    ∃ m, StateMap.collect s scope = .ok m := by
  refine StateMap.collectKeys_eq_ok_iff.2 fun key hk => ?_
  have hmem : key ∈ s.keys := (List.mem_filter.1 hk).1
  unfold keys at hmem
  rw [hhost] at hmem
  cases key with
  | host i => simp at hmem
  | _ => simpa [record?] using hmem

namespace StateManager

/-- A game is put together whenever its services can be recorded. -/
theorem exists_saveMap {s : ServiceSet} {map : StateMap} (h : StateMap.collect s .game = .ok map)
    (m : StateManager) (record : PlaybackRecord) (steps : Nat) :
    ∃ m' map', m.saveMap s record steps = (m', .ok map') := by
  unfold saveMap store
  rw [h]
  dsimp only
  split
  · exact ⟨_, _, rfl⟩
  · exact ⟨_, _, rfl⟩

end StateManager

namespace Engine

/-- The states that an engine comes to while the host leaves services of a shape in their place.
Resources and files may change at any time. -/
inductive ComesTo (σ : ServiceSet) (e₀ : Engine) : Engine → Prop where
  | start : ComesTo σ e₀ e₀
  | perform {e : Engine} {op : Operation} (h : ComesTo σ e₀ e) (hop : op.Keeps σ) :
      ComesTo σ e₀ (e.perform op)
  | supply {e : Engine} (h : ComesTo σ e₀ e) (resources : Resources) (files : FileTree) :
      ComesTo σ e₀ (e.supply resources files)

variable {σ : ServiceSet} {e₀ e : Engine} {op : Operation}

theorem ComesTo.performAll {l : List Operation} (h : ComesTo σ e₀ e)
    (hl : ∀ op ∈ l, op.Keeps σ) : ComesTo σ e₀ (e.performAll l) := by
  induction l generalizing e with
  | nil => exact h
  | cons op rest ih =>
    exact ih (h.perform (hl op List.mem_cons_self)) fun op h => hl op (List.mem_cons_of_mem _ h)

theorem ComesTo.reachable (h₀ : e₀.Reachable) (h : ComesTo σ e₀ e) : e.Reachable := by
  induction h with
  | start => exact h₀
  | perform _ _ ih => exact ih.perform _
  | supply _ resources files ih => exact ih.supply resources files

theorem ComesTo.config (h₀ : e₀.Reachable) (h : ComesTo σ e₀ e) : e.config = e₀.config := by
  induction h with
  | start => rfl
  | perform h _ ih => exact (perform_acts (h.reachable h₀).sited _).config.trans ih
  | supply _ _ _ ih => exact ih

theorem spares_inMemory (hv : e.saves.InMemory) : op.Spares SaveSlots.InMemory e := by
  have hgame : ∀ slot, (e.saveGame slot).1.saves.InMemory := by
    intro slot
    rcases e.saves_saveGame slot with hsame | ⟨record, m, map, -, -, hsave⟩
    · exact hsame ▸ hv
    · exact hsave ▸ hv.save
  have hscope : ∀ scope slot, (e.saveScope scope slot).1.saves.InMemory := by
    intro scope slot
    rcases e.saves_saveScope scope slot with hsame | ⟨map, hsave⟩
    · exact hsame ▸ hv
    · exact hsave ▸ hv.save
  cases op with
  | save slot => exact hgame slot
  | quickSave => exact hgame _
  | delete slot => exact hv.delete
  | saveGlobal => exact hscope .global _
  | saveSettings => exact hscope .settings _
  | _ => exact trivial

theorem ComesTo.tame (h₀ : e₀.Tame σ SaveSlots.InMemory) (h : ComesTo σ e₀ e) :
    e.Tame σ SaveSlots.InMemory := by
  induction h with
  | start => exact h₀
  | perform _ hop ih => exact ih.perform hop (spares_inMemory ih.saves)
  | supply _ _ _ ih => exact ⟨ih.registry, ih.playback, ih.runs, ih.saves⟩

/-- A game is put together in every state in which playback is not over. -/
theorem saveGame_eq (hhost : e.services.host = []) (hplaying : e.cursor.isStopped = false)
    (slot : String) : ∃ m map, e.saveGame slot = (e.withManager m).saveMap .game slot map := by
  obtain ⟨records, hrecords⟩ := ServiceSet.exists_collect hhost .game
  obtain ⟨record, hrecord⟩ : ∃ record, e.playbackRecord? = some record := by
    obtain ⟨i, hi⟩ : ∃ i, e.cursor.index = some i :=
      Option.isSome_iff_exists.1 (by simpa [Cursor.isStopped] using hplaying)
    have hspot : e.cursor.spot? = some ⟨e.cursor.script, i⟩ := by
      unfold Cursor.spot?
      rw [hi]
      rfl
    unfold playbackRecord?
    dsimp only
    rw [hspot]
    exact ⟨_, rfl⟩
  obtain ⟨m, map, hmap⟩ := e.playback.manager.exists_saveMap hrecords record
    e.config.state.savedSteps
  refine ⟨m, map, ?_⟩
  unfold saveGame
  rw [hrecord]
  dsimp only
  rw [hmap]

/-- Unless playback is over, quick saving works exactly if the configured name is one of a slot, and
refuses a name that is none without a change of what is saved. -/
theorem quickSave_answers {config : Config} {parts : EngineParts}
    (hbuild : build config parts = .ok e₀) (hhost : parts.services = [])
    (hcommands : ∀ h ∈ parts.commands, ∀ c t, h.begin c = .ok t → t.Tame)
    (hmemory : parts.saves.InMemory) (h : ComesTo e₀.services.shape e₀ e)
    (hplaying : e.cursor.isStopped = false) :
    let slot := config.state.quickSlot
    (SaveSlots.isSlot slot = true → ∃ e' l, e.quickSave = (e', .ok ()) ∧ e'.gameSlots = .ok l ∧
      slot ∈ l) ∧
    (SaveSlots.isSlot slot = false → ∃ e', e.quickSave = (e', .error (.save (.invalidSlot slot))) ∧
      e'.saves = e.saves) := by
  intro slot
  have hreach : e₀.Reachable := .build hbuild
  have hbuilt : e₀.config = config ∧ e₀.saves = parts.saves := by
    obtain ⟨registry, services, -, -, -, rfl⟩ := build_eq_ok hbuild
    exact ⟨rfl, rfl⟩
  have htame₀ := tame_build hbuild hcommands
  have htame := h.tame ⟨htame₀.registry, htame₀.playback, htame₀.runs, hbuilt.2 ▸ hmemory⟩
  have hnone : e.services.host = [] := by
    refine ServiceSet.host_eq_nil_of_shape htame.playback.shape ?_
    rw [(services_build hbuild).2.2, hhost]
  have hslot : e.config.state.quickSlot = slot := by
    rw [h.config hreach, hbuilt.1]
  obtain ⟨m, map, hsave⟩ := saveGame_eq hnone hplaying slot
  have hquick : e.quickSave = (e.withManager m).saveMap .game slot map := by
    unfold quickSave
    rw [hslot, hsave]
  refine ⟨fun hvalid => ?_, fun hinvalid => ?_⟩
  · obtain ⟨v, hv, hstores⟩ := htame.saves.save_ok hvalid e.files map
    obtain ⟨l, hlist, hmem⟩ := hstores.mem_list e.files
    refine ⟨{ e.withManager m with saves := v }, l, ?_, ?_, hmem⟩
    · rw [hquick]
      unfold saveMap
      rw [show (e.withManager m).saves.save (e.withManager m).files .game slot map = _ from hv]
      rfl
    · show (v.list e.files .game).mapError EngineError.save = .ok l
      rw [hlist]
      rfl
  · refine ⟨e.withManager m, ?_, rfl⟩
    rw [hquick]
    unfold saveMap
    rw [SaveSlots.save_refused hinvalid]
    rfl

/-- A run that plays the tale up to its first line. -/
def tellFirst : List Operation :=
  [threeLines, .playFrom "tale" 0, .input (.tick 0)]

/-- Under its own name for the slot, an engine that plays saves what it plays. -/
theorem quickSave_answers_tale : ∃ e₀ e' l, build {} {} = .ok e₀ ∧
    (e₀.performAll tellFirst).cursor.isStopped = false ∧
    (e₀.performAll tellFirst).quickSave = (e', .ok ()) ∧ e'.gameSlots = .ok l ∧ "quick" ∈ l := by
  have hrun : ((build {} {}).toOption.any fun e =>
      !(e.performAll tellFirst).cursor.isStopped) = true := by
    decide +kernel
  obtain ⟨e₀, he₀, hplaying⟩ := (Option.any_eq_true _ _).1 hrun
  have hbuild := eq_ok_of_toOption he₀
  have hplaying : (e₀.performAll tellFirst).cursor.isStopped = false := by simpa using hplaying
  have hkeeps : ∀ op ∈ tellFirst, op.Keeps e₀.services.shape := by
    intro op hop
    simp only [tellFirst, threeLines, List.mem_cons, List.not_mem_nil, or_false] at hop
    rcases hop with rfl | rfl | rfl <;> exact trivial
  obtain ⟨hvalid, -⟩ := quickSave_answers hbuild rfl (fun _ h => absurd h List.not_mem_nil)
    ⟨_, rfl⟩ (ComesTo.start.performAll hkeeps) hplaying
  obtain ⟨e', l, hsave, hlist, hmem⟩ := hvalid (by decide)
  exact ⟨e₀, e', l, hbuild, hplaying, hsave, hlist, hmem⟩

/-- A configuration whose name for the slot holds a blank. -/
def spaced : Config :=
  { state := { quickSlot := "a b" } }

/-- The configuration is accepted, but what plays is not saved. -/
theorem quickSave_spaced : ∃ e₀, build spaced {} = .ok e₀ ∧
    (e₀.performAll tellFirst).cursor.isStopped = false ∧
    (e₀.performAll tellFirst).quickSave.2 ≠ .ok () ∧
    (e₀.performAll tellFirst).quickSave.1.gameSlots = .ok [] := by
  have hrun : ((build spaced {}).toOption.any fun e =>
      let t := e.performAll tellFirst
      t.cursor.isStopped = false ∧ t.quickSave.2.toOption = none ∧
        t.quickSave.1.gameSlots.toOption = some []) = true := by
    decide +kernel
  obtain ⟨e₀, he₀, hcheck⟩ := (Option.any_eq_true _ _).1 hrun
  obtain ⟨hplaying, hsave, hslots⟩ := of_decide_eq_true hcheck
  refine ⟨e₀, eq_ok_of_toOption he₀, hplaying, fun hok => ?_, eq_ok_of_toOption hslots⟩
  rw [hok] at hsave
  cases hsave

end Engine

end Playhead
