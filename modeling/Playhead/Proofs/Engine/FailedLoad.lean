import Playhead.Proofs.Engine.Calm
import Playhead.Proofs.State.Atomic
import Playhead.Proofs.Wings.Recalled

/-!
A map that is refused names a service of the scope that cannot take in its record, and leaves the
built-in services as they are.

What a load that fails leaves behind: the cursor, the history and the services are as they were, but
where a service refuses its record, what was in flight is gone.
-/

namespace Playhead

namespace ServiceSet

variable {s : ServiceSet}

/-- The built-in services have distinct names. -/
theorem ids_nodup (hhost : s.host = []) : s.ids.Nodup := by
  have hone : ∀ (there : Bool) (key : ServiceKey),
      (if there then [key] else []).Sublist [key] := by
    intro there key
    cases there
    · exact List.nil_sublist _
    · exact .refl _
  have hkeys : s.keys.Sublist
      [.variableStore, .textLog, .choices, .callStack, .played, .preferences] := by
    unfold keys
    rw [hhost]
    exact (((((hone _ _).append (hone _ _)).append (hone _ _)).append (hone _ _)).append
      (hone _ _)).append (hone _ _) |>.append (.refl [])
  have hids := hkeys.map s.idOf
  refine hids.nodup ?_
  show ["variables", "text-log", "choices", "call-stack", "played-scripts", "preferences"].Nodup
  decide

theorem ne_host_of_mem_keys (hhost : s.host = []) {key : ServiceKey} (hkey : key ∈ s.keys)
    (i : Nat) : key ≠ .host i := by
  rintro rfl
  simp [keys, hhost] at hkey

end ServiceSet

namespace StateMap

open ServiceSet

variable {s t u : ServiceSet} {scope : StateScope} {m : StateMap} {keys : List ServiceKey}
  {why : ServiceError}

/-- A service of a scope cannot take in the record that a map has for it. -/
def Refuses (m : StateMap) (scope : StateScope) (s : ServiceSet) (why : ServiceError) : Prop :=
  ∃ key ∈ s.inScope scope, ∃ j, m.get? (s.idOf key) = some j ∧ s.restore? scope key j = none ∧
    why = .record (s.idOf key)

/-- The services that come after the first one touched are still as they were. -/
theorem refuses_of_applyKeys (hn : keys.Nodup) (hkeys : ∀ key ∈ keys, key ∈ s.inScope scope)
    (ht : Comes scope s t) (hsame : ∀ key ∈ keys, s.AgreesAt t key)
    (h : applyKeys m scope t keys = (u, some why)) : m.Refuses scope s why := by
  induction keys generalizing t with
  | nil => cases h
  | cons key rest ih =>
    obtain ⟨hnot, hn⟩ := List.nodup_cons.1 hn
    have hkey := hkeys key List.mem_cons_self
    have hid : t.idOf = s.idOf := by
      rw [← idOf_shape, ht.shape_eq, idOf_shape]
    have hrest : ∀ {t'}, Touches scope key t t' → applyKeys m scope t' rest = (u, some why) →
        m.Refuses scope s why := by
      intro t' htouch h
      refine ih hn (fun k hk => hkeys k (List.mem_cons_of_mem _ hk)) (ht.touch hkey htouch)
        (fun k hk => ?_) h
      have hne : k ≠ key := fun heq => hnot (heq ▸ hk)
      exact (hsame k (List.mem_cons_of_mem _ hk)).trans (AgreesAt.symm (htouch.agreesAt hne))
    unfold applyKeys at h
    cases hget : m.get? (t.idOf key) with
    | none =>
      rw [hget] at h
      exact hrest .reset h
    | some j =>
      rw [hget] at h
      unfold restore at h
      cases hr : t.restore? scope key j with
      | some t' =>
        simp only [hr] at h
        exact hrest (.takeIn hr) h
      | none =>
        simp only [hr] at h
        cases h
        refine ⟨key, hkey, j, hid ▸ hget, ?_, by rw [hid]⟩
        cases hs : s.restore? scope key j with
        | none => rfl
        | some v =>
          obtain ⟨w, hw, -⟩ := (hsame key List.mem_cons_self).exists_restore hs
          cases hr.symm.trans hw

/-- The built-in services have a record of every scope. -/
theorem exists_collect (hhost : s.host = []) (scope : StateScope) :
    ∃ backup, collect s scope = .ok backup := by
  refine collectKeys_eq_ok_iff.2 fun key hkey => ?_
  have hkey := (mem_inScope_iff.1 hkey).1
  exact Option.isSome_iff_exists.2 (exists_record scope (ne_host_of_mem_keys hhost hkey) hkey)

/-- A map that the built-in services refuse changes none of them. -/
theorem apply_refused (hhost : s.host = []) (hwords : s.InWords)
    (hfinite : s.HoldsFinite scope .variableStore) (h : m.apply scope s = (t, .error why)) :
    t = s ∧ m.Refuses scope s why := by
  have hnone : ∀ {P : HostService → Prop}, ∀ k ∈ s.host, P k := by
    intro P k hk
    rw [hhost] at hk
    cases hk
  have hn := ids_nodup hhost
  have hrecoverable : s.Recoverable (fun _ _ => ()) scope := recoverable hwords hfinite hnone
  have hkeys : (s.inScope scope).Nodup := .of_map _ (hn.sublist (List.filter_sublist.map _))
  obtain ⟨backup, hc⟩ := exists_collect hhost scope
  have hcomes := applyKeys_comes m (fun _ hkey => hkey) (Comes.here : Comes scope s s)
  unfold apply at h
  rw [hc] at h
  cases ha : applyKeys m scope s (s.inScope scope) with
  | mk u err =>
    rw [ha] at hcomes h
    cases err with
    | none => cases h
    | some e =>
      obtain ⟨v, hv, -, -, heq⟩ := exists_putBack hn hrecoverable hc hcomes
      dsimp only at h hv
      rw [hv] at h
      cases h
      exact ⟨heq hnone, refuses_of_applyKeys hkeys (fun _ hk => hk) .here (fun key _ => .refl s key)
        ha⟩

end StateMap

/-- Whether positions and times are words of 64 bits can be told. -/
instance (s : ServiceSet) : Decidable s.InWords :=
  decidable_of_iff ((∀ k ∈ s.callStack, ∀ f ∈ k.frames, f.index < Decimal.twoTo 64) ∧
      (∀ p ∈ s.played, ∀ e ∈ p.scripts.entries, ∀ n ∈ e.2.items, n < Decimal.twoTo 64) ∧
      ∀ p ∈ s.preferences, p.current.autoPlayDelay < Decimal.twoTo 64)
    ⟨fun h => ⟨h.1, h.2.1, h.2.2⟩, fun h => ⟨h.calls, h.played, h.delay⟩⟩

namespace Engine

/-- The services are the engine's own, and hold finite numbers only. -/
structure Homemade (e : Engine) : Prop where
  host : e.services.host = []
  words : e.services.InWords
  finite : e.services.HoldsFinite .game .variableStore

/-- Every command in flight can be dropped without a trace. -/
structure Droppable (e : Engine) : Prop where
  active : ∀ a, e.player.active = some a → ∀ s, a.task.cancel s = s
  runs : ∀ r ∈ e.transients.runs, ∀ s, r.abandon s = s

/-- A slot holds a game that can be taken up, but for the record of a service that refuses it. -/
def RefusesSave (e : Engine) (slot : String) (err : EngineError) : Prop :=
  ∃ save record d why, (e.readGame slot).2 = .ok (save, record, d) ∧
    save.records.Refuses .game e.services why ∧ err = .state (.service why)

variable {e e' : Engine} {slot : String} {err : EngineError}

/-- Built-in commands can all be dropped. -/
theorem Homely.droppable (he : e.Homely) : e.Droppable where
  active a ha := Task.cancel_eq (he.active a ha)
  runs r hr := (he.regular.runs r hr).1.abandon_eq

/-- Cancelling the scope of playback drops the command in flight where it is. -/
theorem cancelPlaybackScope_cursor (e : Engine) :
    e.cancelPlaybackScope.cursor = e.cursor ∧ e.cancelPlaybackScope.stack = e.stack ∧
      e.cancelPlaybackScope.player.active = none := by
  obtain ⟨hplayer, hmanager, -⟩ := player_cancelActive e.playback
  rw [cancelPlaybackScope_reaps rfl]
  refine ⟨?_, congrArg StateManager.stack hmanager, ?_⟩
  · show e.playback.cancelActive.player.cursor = _
    rw [hplayer]
    rfl
  · show e.playback.cancelActive.player.active = _
    rw [hplayer]

/-- Cancelling the scope of playback ends the linked runs and leaves no trace in the services. -/
theorem Droppable.cancelPlaybackScope (he : e.Droppable) :
    e.cancelPlaybackScope.services = e.services ∧
      e.cancelPlaybackScope.transients.runs =
        e.transients.runs.filter (!e.wings.linked ·) := by
  obtain ⟨q, hq⟩ : ∃ q, q = e.playback.cancelActive := ⟨_, rfl⟩
  have hactive : q.services = e.services := by
    rw [hq]
    unfold Playback.cancelActive
    split
    · rfl
    · rename_i a ha
      exact he.active a ha _
  obtain ⟨c, hc⟩ : ∃ c, c = e.playback.scopes.cancel e.player.scope := ⟨_, rfl⟩
  have hlinked : ∀ r : TransientRun, c.isCancelled r.scope = e.wings.linked r :=
    fun r => hc ▸ Cancellations.isCancelled_cancel _ _ _
  obtain ⟨hruns, hscene⟩ :=
    TransientRunner.visit_reap he.runs c { e.transients with runs := [] } q.scene
  have hkept : (e.transients.reapCancelled c q.scene).2.services = q.services := by
    rw [show (e.transients.reapCancelled c q.scene).2 = _ from hscene]
    rfl
  simp only [hlinked] at hruns
  rw [cancelPlaybackScope_reaps hc, ← hq]
  exact ⟨hkept.trans hactive, hruns⟩

/-- A load that fails changes neither the cursor nor the history nor any service. The commands in
flight are as they were, too, unless a service refuses its record: then that of the main script and
the linked transient scripts are dropped. -/
theorem loadGame_refused (hown : e.Homemade) (hdrop : e.Droppable)
    (h : e.loadGame slot = (e', .error err)) :
    e'.cursor = e.cursor ∧ e'.stack = e.stack ∧ e'.services = e.services ∧
      (e'.player.active = e.player.active ∧ e'.transients = e.transients ∨
        e.RefusesSave slot err ∧ e'.player.active = none ∧
          e'.transients.runs = e.transients.runs.filter (!e.wings.linked ·)) := by
  obtain ⟨k, hk⟩ := e.readGame_library slot
  unfold loadGame at h
  cases hread : e.readGame slot with
  | mk u r =>
    rw [hread] at h hk
    obtain rfl : u = e.withLibrary k := hk
    cases r with
    | error why =>
      cases h
      exact ⟨rfl, rfl, rfl, .inl ⟨rfl, rfl⟩⟩
    | ok found =>
      obtain ⟨save, record, d⟩ := found
      have hdrop' : (e.withLibrary k).Droppable := ⟨hdrop.active, hdrop.runs⟩
      obtain ⟨hservices, hruns⟩ := hdrop'.cancelPlaybackScope
      obtain ⟨hcursor, hstack, hidle⟩ := (e.withLibrary k).cancelPlaybackScope_cursor
      dsimp only at h
      generalize (e.withLibrary k).cancelPlaybackScope = v
        at h hservices hruns hcursor hstack hidle
      have hsame : v.services = e.services := hservices
      unfold StateManager.load at h
      cases happly : save.records.apply .game v.services with
      | mk s result =>
        rw [happly] at h
        cases result with
        | ok _ => cases h
        | error why =>
          cases h
          rw [hsame] at happly
          obtain ⟨rfl, hrefuses⟩ :=
            StateMap.apply_refused hown.host hown.words hown.finite happly
          exact ⟨hcursor, hstack, rfl, .inr
            ⟨⟨save, record, d, why, by rw [hread], hrefuses, rfl⟩, hidle, hruns⟩⟩

/-- A save whose log is no log. -/
def spoilt : StateMap :=
  .ofList [(PlaybackRecord.id, PlaybackRecord.toJson ⟨⟨"tale", 0⟩, 0, 0, false⟩),
    ("text-log", .int 5)]

/-- Slots that hold it. -/
def spoiltParts : EngineParts :=
  { saves := (SaveSlots.inMemory.save .empty .game "a" spoilt).2.1 }

/-- A wait is in flight, and a transient script in the scope of playback. -/
def untilNap : List Operation :=
  [.loadScript "tale" "@wait 1\n@print b\n", .playFrom "tale" 0, .input (.tick 0),
    .playTransient "tied" "@wait 5\n" ⟨1, []⟩, .input (.tick 0)]

/-- The wait is dropped, and the transient script has ended; all else is as it was. -/
theorem loadGame_refused_nap : ∃ (e e' : Engine) (err : EngineError), e.Unaided ∧
    e.loadGame "a" = (e', .error err) ∧ e.player.active.isSome ∧
    e'.cursor = e.cursor ∧ e'.stack = e.stack ∧ e'.services = e.services ∧
    e.RefusesSave "a" err ∧ e'.player.active = none ∧
    e'.transients.runs = e.transients.runs.filter (!e.wings.linked ·) := by
  have hrun : ((build {} spoiltParts).toOption.any fun e₀ =>
      e₀.ProperAll untilNap ∧ (e₀.performAll untilNap).services.host.isEmpty ∧
        (e₀.performAll untilNap).services.InWords ∧
        ((e₀.performAll untilNap).services.variableStore.all fun v =>
          (v.within .game).entries.isEmpty) ∧
        (e₀.performAll untilNap).player.active.isSome ∧
        ((e₀.performAll untilNap).loadGame "a").1.player.active.isNone ∧
        ((e₀.performAll untilNap).loadGame "a").2.toOption = none) = true := by
    decide +kernel
  obtain ⟨e₀, he₀, hcheck⟩ := (Option.any_eq_true _ _).1 hrun
  obtain ⟨hproper, hcheck⟩ := of_decide_eq_true hcheck
  have hunaided : (e₀.performAll untilNap).Unaided :=
    (Unaided.build (eq_ok_of_toOption he₀) rfl (by decide)).performAll hproper
  generalize e₀.performAll untilNap = e at hcheck hunaided
  obtain ⟨hhost, hwords, hvars, hactive, hidle, hfails⟩ := hcheck
  have hown : e.Homemade := by
    refine ⟨List.isEmpty_iff.1 hhost, hwords, fun _ v hv entry hentry => ?_⟩
    rw [hv] at hvars
    rw [List.isEmpty_iff.1 hvars] at hentry
    cases hentry
  cases hload : e.loadGame "a" with
  | mk e' r =>
    rw [hload] at hidle hfails
    cases r with
    | ok _ => cases hfails
    | error err =>
      obtain ⟨hcursor, hstack, hservices, hkept | hdropped⟩ :=
        loadGame_refused hown hunaided.homely.droppable hload
      · rw [← hkept.1, Option.isNone_iff_eq_none.1 hidle] at hactive
        cases hactive
      · exact ⟨e, e', err, hunaided, hload, hactive, hcursor, hstack, hservices, hdropped⟩

/-- A load that fails drops the command in flight. -/
theorem loadGame_drops_nap : ∃ e : Engine, e.Reachable ∧ (e.loadGame "a").2.toOption = none ∧
    e.player.active.isSome ∧ (e.loadGame "a").1.player.active.isNone := by
  have hrun : ((build {} spoiltParts).toOption.any fun e₀ =>
      ((e₀.performAll untilNap).loadGame "a").2.toOption = none ∧
        (e₀.performAll untilNap).player.active.isSome ∧
        ((e₀.performAll untilNap).loadGame "a").1.player.active.isNone) = true := by
    decide +kernel
  obtain ⟨e₀, he₀, hcheck⟩ := (Option.any_eq_true _ _).1 hrun
  exact ⟨_, (Reachable.build (eq_ok_of_toOption he₀)).performAll untilNap,
    of_decide_eq_true hcheck⟩

end Engine

end Playhead
