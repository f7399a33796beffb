import Playhead.Proofs.Engine.Acts
import Playhead.Proofs.Motion.Deeds
import Playhead.Proofs.Services.Task
import Playhead.Proofs.State.Applied

/-!
Runs of an engine with all moves of playback that were made in them, and what these moves account
for: the state of a built-in service to which nothing but playback writes.
-/

namespace Playhead

open Playback (Move Sited Step Path)

/-- What accounts for the state of a built-in service by the moves that were made, if all commands
are of a kind. Only a move of playback adds to it. -/
structure Ledger (key : ServiceKey) (P : Task → Prop) (I : List Move → ServiceSet → Prop) :
    Prop where
  whole : key.IsWhole
  builtin : ∀ t, ¬t.IsHost → P t
  stems : ∀ {t u}, t.Stems u → P t → P u
  present : ∀ {H s}, I H s → key ∈ s.keys
  congr : ∀ {H s t}, t.AgreesAt s key → I H s → I H t
  more : ∀ {H K s}, H ⊆ K → I H s → I K s
  reset : ∀ {H s}, I H s → I H (s.reset .game key)
  cancel : ∀ {H s t}, P t → I H s → I H (t.cancel s)
  aside : ∀ {H s t} {ctx : Context}, P t → ctx.transient = true → I H s → I H (t.step ctx s).2
  move : ∀ {H env p q}, Step env p q → (∀ a, p.player.active = some a → P a.task) →
    I H p.services → I (H ++ [⟨p, q⟩]) q.services

/-- Records of a game that leave services with an account, whether they are taken in or refused. -/
def Accounts (I : List Move → ServiceSet → Prop) (H : List Move) (records : StateMap) : Prop :=
  ∀ K s, H ⊆ K → I K s → I K (records.apply .game s).1

variable {key : ServiceKey} {P : Task → Prop} {I : List Move → ServiceSet → Prop}
  {H K : List Move} {s t : ServiceSet} {scope : StateScope} {map : StateMap}

theorem Accounts.more (h : Accounts I H map) (hK : H ⊆ K) : Accounts I K map :=
  fun L s hL hs => h L s (List.Subset.trans hK hL) hs

theorem Accounts.restore {x : Snapshot} (hx : Accounts I H x.records) (hs : I H s) :
    I H (StateManager.restore s x).1 := by
  have happly := hx H s (List.Subset.refl H) hs
  unfold StateManager.restore
  split
  · exact hs
  · generalize x.records.apply .game s = r at happly ⊢
    obtain ⟨u, err | _⟩ := r <;> exact happly

namespace Ledger

variable (hI : Ledger key P I)

include hI

theorem inScope (ht : I K t) (h : key ∈ s.inScope scope) : key ∈ t.inScope scope := by
  have hscopes : t.scopesOf key = s.scopesOf key := by
    have hwhole := hI.whole
    cases key with
    | host i => exact hwhole.elim
    | _ => rfl
  unfold ServiceSet.inScope at h ⊢
  exact List.mem_filter.2 ⟨hI.present ht, hscopes ▸ (List.mem_filter.1 h).2⟩

/-- Records of services with an account leave services with an account, even if they are refused. -/
theorem apply (hs : I H s) (ht : I H t) (hmap : StateMap.collect t scope = .ok map) :
    I H (map.apply scope s).1 := by
  by_cases hkey : key ∈ s.inScope scope
  · rcases StateMap.agreesAt_apply hI.whole (hI.inScope ht hkey) hmap with h | h
    · exact hI.congr h hs
    · exact hI.congr h ht
  · exact hI.congr (StateMap.agreesAt_apply_of_not_mem map hkey) hs

theorem accounts (ht : I H t) (hmap : StateMap.collect t .game = .ok map) : Accounts I H map :=
  fun _ _ hK hs => hI.apply hs (hI.more hK ht) hmap

/-- Any game will do for a service that games do not hold. -/
theorem accounts_of_not_mem (ht : I H t) (hkey : key ∉ t.inScope .game) (map : StateMap) :
    Accounts I H map := fun _ _ hK hs =>
  hI.congr (StateMap.agreesAt_apply_of_not_mem map fun h => hkey (hI.inScope (hI.more hK ht) h)) hs

theorem resetGame (hs : I H s) : I H (StateMap.reset .game s) :=
  (StateMap.agreesAt_reset_game hI.whole s).elim (hI.congr · hs) (hI.congr · (hI.reset hs))

/-- Options are no concern of an account of another service. -/
theorem clear (hs : I H s) :
    I H { s with choices := s.choices.map fun _ => .empty } := by
  by_cases hkey : key = .choices
  · subst hkey
    exact hI.reset hs
  · have hsame : (s.reset .game .choices).AgreesAt s key := ServiceSet.agreesAt_reset s .game hkey
    exact hI.congr hsame hs

theorem assign (hs : I H s) (v : VariableStore) : I H { s with variableStore := some v } := by
  refine hI.congr ?_ hs
  have hwhole := hI.whole
  cases key with
  | host i => exact hwhole.elim
  | variableStore => exact hwhole.elim
  | _ => rfl

/-- Turns of a transient script keep an account. -/
theorem kept {registry : Registry} (hreg : registry.Starts P) :
    TransientRun.Kept registry fun r s => r.Holds P ∧ I H s.services :=
  TransientRun.kept_services hreg (fun _ _ => hI.stems) (fun _ _ => hI.cancel)
    fun _ _ _ => hI.aside

end Ledger

namespace Playback

variable {env : Env} {p q : Playback} {l : List Playback}

/-- Playback of commands of a kind, with an account of the services and of all that history holds
of them. -/
structure Bears (P : Task → Prop) (I : List Move → ServiceSet → Prop) (H : List Move)
    (p : Playback) : Prop where
  active : ∀ a, p.player.active = some a → P a.task
  services : I H p.services
  snapshots : ∀ x ∈ p.manager.stack.snapshots, Accounts I H x.records

theorem Bears.step (hI : Ledger key P I) (hreg : env.source.registry.Starts P) (hs : Sited env p)
    (h : Step env p q) (hp : p.Bears P I H) : q.Bears P I (H ++ [⟨p, q⟩]) := by
  have hturns : Turns env .none p q := h.turns hs.registry hs.read
  have hservices : I (H ++ [⟨p, q⟩]) q.services := hI.move h hp.active hp.services
  refine ⟨hturns.starts hreg (fun _ _ => hI.stems) hp.active, hservices, fun y hy => ?_⟩
  rcases h.snapshots y hy with ⟨x, hx, hxy⟩ | hcollect
  · have hrecords : y.records = x.records := by
      unfold Snapshot.Alike at hxy
      rw [hxy]
    rw [hrecords]
    exact (hp.snapshots x hx).more (List.subset_append_left _ _)
  · exact hI.accounts hservices hcollect

theorem Bears.cancelActive (hI : Ledger key P I) (hp : p.Bears P I H) :
    p.cancelActive.Bears P I H := by
  unfold Playback.cancelActive
  cases ha : p.player.active with
  | none => exact hp
  | some a => exact ⟨fun _ h => (nomatch h), hI.cancel (hp.active a ha) hp.services, hp.snapshots⟩

/-- A move of playback of commands of a kind, with an account of the services before it. -/
def Move.Told (P : Task → Prop) (I : List Move → ServiceSet → Prop) (m : Move)
    (H : List Move) : Prop :=
  ∃ env : Env, Sited env m.before ∧ Step env m.before m.after ∧ m.before.Bears P I H

theorem Bears.path (hI : Ledger key P I) (hreg : env.source.registry.Starts P) (hs : Sited env p)
    (h : Path env p l q) (hp : p.Bears P I H) :
    q.Bears P I (H ++ Move.along p l) ∧
      ∀ earlier m later, Move.along p l = earlier ++ m :: later → m.Told P I (H ++ earlier) := by
  obtain ⟨⟨-, hend⟩, hall⟩ := h.along_keeps (J := fun H p => Sited env p ∧ p.Bears P I H)
    (fun H p q h hp => ⟨hp.1.step h, hp.2.step hI hreg hp.1 h⟩) ⟨hs, hp⟩
  refine ⟨hend, fun earlier m later heq => ?_⟩
  obtain ⟨hstep, hsteps, hbears⟩ := hall earlier m later heq
  exact ⟨env, hsteps, hstep, hbears⟩

end Playback

/-- Whether an operation leaves a built-in service to playback, but for the records of the game:
the host writes nothing else to it and does not take up its global record. -/
def Operation.Entrusts (key : ServiceKey) (e : Engine) : Operation → Prop
  | .write s => s.AgreesAt e.services key
  | .loadGlobal => key ∉ e.services.inScope .global
  | _ => True

/-- Operations in which the host neither writes to the services nor takes up their global state. -/
def Operation.trusts : Operation → Bool
  | .write _ | .loadGlobal => false
  | _ => true

theorem Operation.entrusts_of_trusts {op : Operation} (h : op.trusts = true) (key : ServiceKey)
    (e : Engine) (σ : ServiceSet) : op.Keeps σ ∧ op.Entrusts key e := by
  cases op with
  | write s | loadGlobal => cases h
  | _ => exact ⟨trivial, trivial⟩

/-- Whether the saved games that an operation takes up have an account. -/
def Operation.Vouched (I : List Move → ServiceSet → Prop) (H : List Move) (e : Engine)
    (op : Operation) : Prop :=
  ∀ save, op.TakesUp e save → Accounts I H save.records ∧
    ∀ x ∈ save.rollback, Accounts I H x.records

namespace Engine

variable {e e₀ u : Engine} {op : Operation} {l : List Move} {slot : String}

/-- An engine of commands of a kind, with an account of the services. -/
structure Bears (P : Task → Prop) (I : List Move → ServiceSet → Prop) (H : List Move)
    (e : Engine) : Prop where
  registry : e.registry.Starts P
  playback : e.playback.Bears P I H
  runs : ∀ r ∈ e.transients.runs, r.Holds P

theorem Bears.withServices (he : e.Bears P I H) (hs : I H s) : (e.withServices s).Bears P I H :=
  ⟨he.registry, ⟨he.playback.active, hs, he.playback.snapshots⟩, he.runs⟩

/-- Transient scripts that take their turns keep an account. -/
theorem Bears.visit (he : e.Bears P I H)
    {turn : TransientRun → Scene → TransientRun × Scene × Option TransientStatus}
    (hturn : ∀ r s, r.Holds P → I H s.services →
      (turn r s).1.Holds P ∧ I H (turn r s).2.1.services) :
    ({ e with
        transients := (e.transients.visitAll turn e.playback.scene).1
        playback := { e.playback with
          scene := (e.transients.visitAll turn e.playback.scene).2 } } : Engine).Bears P I H := by
  obtain ⟨hruns, hservices⟩ := TransientRunner.visitAll_keeps (P := fun s => I H s.services)
    hturn (fun _ _ _ h => h) he.runs he.playback.services
  exact ⟨he.registry, ⟨he.playback.active, hservices, he.playback.snapshots⟩, hruns⟩

theorem Bears.rewrite (hI : Ledger key P I) (h₀ : e₀.Bears P I H) (he : e.Bears P I H)
    (hop : op.Entrusts key e₀) (hv : op.Vouched I H e₀) (h : op.Rewrites e₀ e s) : I H s := by
  have hs := he.playback.services
  cases h with
  | clear => exact hI.clear hs
  | assign v hvars => exact hI.assign hs v
  | reset => exact hI.resetGame hs
  | restore hx => exact (he.playback.snapshots _ hx).restore hs
  | undo hscope hmap => exact hI.apply hs h₀.playback.services hmap
  | takeUp htakes =>
    exact (hv _ htakes).1 H _ (List.Subset.refl H) hs
  | @takeScope scope map hload =>
    have hkey : key ∉ e.services.inScope scope := by
      intro hmem
      have hmem := hI.inScope h₀.playback.services hmem
      rcases hload with ⟨rfl, rfl⟩ | ⟨rfl, rfl⟩
      · exact hop hmem
      · have hwhole := hI.whole
        unfold ServiceSet.inScope at hmem
        have hdeclared := (List.mem_filter.1 hmem).2
        cases key with
        | textLog | choices | callStack | played => cases hdeclared
        | _ => exact hwhole.elim
    exact hI.congr (StateMap.agreesAt_apply_of_not_mem map hkey) hs
  | write hwrite =>
    subst hwrite
    exact hI.congr hop h₀.playback.services

theorem Bears.act (hI : Ledger key P I) (h₀ : e₀.Bears P I H) (hop : op.Entrusts key e₀)
    (hv : op.Vouched I H e₀) (h : Act op e₀ e l u) (hK : H ⊆ K) (he : e.Bears P I K) :
    u.Bears P I (K ++ l) ∧
      ∀ earlier m later, l = earlier ++ m :: later → m.Told P I (K ++ earlier) := by
  have hnone : ∀ {u : Engine}, u.Bears P I K → u.Bears P I (K ++ []) ∧
      ∀ earlier (m : Move) later, [] = earlier ++ m :: later → m.Told P I (K ++ earlier) :=
    fun hu => ⟨(List.append_nil K).symm ▸ hu, fun earlier m later heq => by simp at heq⟩
  have h₀ : e₀.Bears P I K := ⟨h₀.registry, ⟨h₀.playback.active,
    hI.more hK h₀.playback.services, fun x hx => (h₀.playback.snapshots x hx).more hK⟩,
    h₀.runs⟩
  have hv : op.Vouched I K e₀ := fun save hsave =>
    ⟨(hv save hsave).1.more hK, fun x hx => ((hv save hsave).2 x hx).more hK⟩
  cases h with
  | play hs hpath hkept =>
    obtain ⟨hend, hall⟩ := he.playback.path hI he.registry hs hpath
    exact ⟨⟨he.registry, hend, he.runs⟩, hall⟩
  | @guide p hguide =>
    refine hnone ⟨he.registry, ⟨fun a ha => ?_, ?_, fun y hy => ?_⟩, he.runs⟩
    · rcases hguide.active with hsame | hidle
      · exact he.playback.active a (hsame ▸ ha)
      · cases hidle.symm.trans ha
    · show I K p.services
      rw [hguide.services]
      exact he.playback.services
    · obtain ⟨x, hx, hxy⟩ := hguide.snapshots y hy
      have hrecords : y.records = x.records := by
        unfold Snapshot.Alike at hxy
        rw [hxy]
      rw [hrecords]
      rcases hx with hx | hx | ⟨save, hsave, hx⟩
      · exact he.playback.snapshots x hx
      · exact h₀.playback.snapshots x hx
      · exact (hv save hsave).2 x hx
  | drop => exact hnone ⟨he.registry, he.playback.cancelActive hI, he.runs⟩
  | rewrite hs => exact hnone (he.withServices (h₀.rewrite hI he hop hv hs))
  | turn delta =>
    exact hnone (he.visit fun r s hr hs => (hI.kept he.registry).advance ⟨hr, hs⟩ _ delta _)
  | reap =>
    refine hnone (he.visit fun r s hr hs => ?_)
    split
    · exact (hI.kept he.registry).dropped r s ⟨hr, hs⟩
    · exact ⟨hr, hs⟩
  | queue d scope =>
    refine hnone ⟨he.registry, he.playback, fun r hr => ?_⟩
    rcases List.mem_append.1 hr with hr | hr
    · exact he.runs r hr
    · rw [List.mem_singleton.1 hr]
      exact TransientRun.holds_idle rfl
  | aside hp hr ht =>
    refine hnone ⟨hr ▸ he.registry, hp ▸ he.playback, fun r h => he.runs r (ht ▸ h)⟩

theorem Bears.perform (hI : Ledger key P I) (he : e.Bears P I H) (hs : Sited e.env e.playback)
    (hop : op.Entrusts key e) (hv : op.Vouched I H e) :
    (e.perform op).Bears P I (H ++ e.moves op) ∧
      ∀ earlier m later, e.moves op = earlier ++ m :: later → m.Told P I (H ++ earlier) := by
  obtain ⟨⟨-, hend⟩, hall⟩ := (perform_acts hs op).keeps
    (J := fun K e => H ⊆ K ∧ e.Bears P I K) (K := fun m K => m.Told P I K)
    (fun K e l u h hK => by
      obtain ⟨hend, hall⟩ := Bears.act hI he hop hv h hK.1 hK.2
      exact ⟨⟨List.Subset.trans hK.1 (List.subset_append_left _ _), hend⟩, hall⟩)
    ⟨List.Subset.refl H, he⟩
  exact ⟨hend, hall⟩

/-- Runs with all moves that were made in them, over commands of a kind. A built-in service is left
to playback, and no games that hold its state are taken up but those that were saved in the run. It
may go on with another engine, and resources and files may change at any time. -/
inductive Chronicle (P : Task → Prop) (key : ServiceKey) : List Move → Engine → Prop where
  | build {config : Config} {parts : EngineParts} {e : Engine} (h : build config parts = .ok e)
    (hP : ∀ k ∈ parts.commands, ∀ c t, k.begin c = .ok t → P t) : Chronicle P key [] e
  | rebuild {l : List Move} {e u : Engine} {config : Config} {parts : EngineParts}
    (h : Chronicle P key l e) (hu : Engine.build config parts = .ok u)
    (hP : ∀ k ∈ parts.commands, ∀ c t, k.begin c = .ok t → P t) : Chronicle P key l u
  | perform {l : List Move} {e : Engine} {op : Operation} (h : Chronicle P key l e)
    (hop : op.Entrusts key e) (hloads : op.Loads → key ∉ e.services.inScope .game) :
    Chronicle P key (l ++ e.moves op) (e.perform op)
  | load {l k : List Move} {e u : Engine} {slot : String} (h : Chronicle P key l e)
    (hu : Chronicle P key k u) (hk : k ⊆ l)
    (hw : ∀ map, e.saves.load e.files .game slot = .ok (some map) → u.Writes map) :
    Chronicle P key l (e.loadGame slot).1
  | supply {l : List Move} {e : Engine} (h : Chronicle P key l e) (resources : Resources)
    (files : FileTree) : Chronicle P key l (e.supply resources files)

namespace Chronicle

theorem reachable (h : Chronicle P key l e) : e.Reachable := by
  induction h with
  | build h hP => exact .build h
  | rebuild h hu hP ih => exact .build hu
  | perform h hop hloads ih => exact ih.perform _
  | load h hu hk hw ih ihu => exact ih.perform (.load _)
  | supply h resources files ih => exact ih.supply resources files

theorem bears_build (hI : Ledger key P I) {config : Config} {parts : EngineParts}
    (h : Engine.build config parts = .ok e)
    (hP : ∀ k ∈ parts.commands, ∀ c t, k.begin c = .ok t → P t)
    (hfresh : ∀ host, I H { ServiceSet.builtin (.ofConfig config.player) with host := host }) :
    e.Bears P I H := by
  have hregistry := starts_build h hI.builtin hP
  obtain ⟨registry, services, -, -, hs, rfl⟩ := build_eq_ok h
  obtain ⟨host, rfl⟩ := exists_host_of_registerServices hs
  exact ⟨hregistry, ⟨fun a ha => (nomatch ha), hfresh host, fun x hx => (nomatch hx)⟩,
    fun r hr => (nomatch hr)⟩

/-- The moves that were made account for the service at the end of a run and before each move. -/
theorem bears (hI : Ledger key P I)
    (hfresh : ∀ H preferences host,
      I H { ServiceSet.builtin preferences with host := host })
    (h : Chronicle P key l e) :
    e.Bears P I l ∧ ∀ earlier m later, l = earlier ++ m :: later → m.Told P I earlier := by
  induction h with
  | build h hP =>
    exact ⟨bears_build hI h hP (hfresh _ _), fun earlier m later heq => by simp at heq⟩
  | rebuild h hu hP ih => exact ⟨bears_build hI hu hP (hfresh _ _), ih.2⟩
  | @perform l e op h hop hloads ih =>
    have hv : op.Vouched I l e := by
      rintro save ⟨slot, record, hopens, -⟩
      have hkey : key ∉ e.services.inScope .game := by
        cases op with
        | load other | quickLoad => exact hloads trivial
        | _ => exact hopens.elim
      have hall := hI.accounts_of_not_mem ih.1.playback.services hkey
      exact ⟨hall _, fun x _ => hall _⟩
    obtain ⟨hend, hall⟩ := ih.1.perform hI h.reachable.sited hop hv
    refine ⟨hend, fun earlier m later heq => ?_⟩
    rcases List.append_eq_append_iff.1 heq with ⟨rest, rfl, hrest⟩ | ⟨rest, hrest, hlater⟩
    · exact hall rest m later hrest
    · cases rest with
      | nil =>
        have hm := hall [] m later hlater.symm
        rw [List.append_nil] at hrest hm
        exact hrest ▸ hm
      | cons m' rest =>
        obtain ⟨rfl, -⟩ := List.cons.inj hlater
        exact ih.2 earlier m rest hrest
  | @load l k e u slot h hu hk hw ih ihu =>
    have hv : (Operation.load slot).Vouched I l e := by
      rintro save ⟨other, record, rfl, map, hmap, hsave, -⟩
      obtain ⟨-, -, hrecords, -, hrollback⟩ := (hw map hmap).eq_of_ofMap hsave
      refine ⟨(hI.accounts ihu.1.playback.services hrecords).more hk, fun x hx => ?_⟩
      rw [hrollback] at hx
      exact (ihu.1.playback.snapshots x ((u.stack.tail_sublist _).subset hx)).more hk
    have htrusts : (Operation.load slot).Entrusts key e := trivial
    have hend := (ih.1.perform hI h.reachable.sited htrusts hv).1
    exact ⟨List.append_nil l ▸ hend, ih.2⟩
  | supply h resources files ih => exact ⟨⟨ih.1.registry, ih.1.playback, ih.1.runs⟩, ih.2⟩

end Chronicle

/-- The moves that are made in a run. -/
def movesAll : Engine → List Operation → List Move
  | _, [] => []
  | e, op :: rest => e.moves op ++ (e.perform op).movesAll rest

theorem split_at {m : Move} {k : Nat} (hm : l[k]? = some m) :
    l = l.take k ++ m :: l.drop (k + 1) := by
  obtain ⟨hk, rfl⟩ := List.getElem?_eq_some_iff.1 hm
  rw [← List.drop_eq_getElem_cons hk, List.take_append_drop]

/-- A move that was made after another one. -/
theorem exists_split {g m : Move} {n k : Nat} (hg : l[n]? = some g) (hm : l[k]? = some m)
    (h : n < k) : ∃ earlier later, l = earlier ++ m :: later ∧ g ∈ earlier := by
  refine ⟨l.take k, l.drop (k + 1), split_at hm, List.mem_of_getElem? (i := n) ?_⟩
  rw [List.getElem?_take, if_pos h, hg]

theorem Wrote.mono {Q R : Engine → Prop} {v : SaveSlots} (h : ∀ u, Q u → R u)
    (hv : Wrote Q v) : Wrote R v := by
  obtain ⟨slots, rfl, hwrote⟩ := hv
  refine ⟨slots, rfl, fun slot map hmap => ?_⟩
  obtain ⟨u, hu, hwrites⟩ := hwrote slot map hmap
  exact ⟨u, h u hu, hwrites⟩

/-- Any operation leads on if all games in the slots were saved in the run. -/
theorem Chronicle.perform_wrote (h : Chronicle P key l e)
    (hv : Wrote (fun u => ∃ k, k ⊆ l ∧ Chronicle P key k u) e.saves)
    (hop : op.Entrusts key e) : Chronicle P key (l ++ e.moves op) (e.perform op) := by
  have hload : ∀ slot, Chronicle P key l (e.loadGame slot).1 := by
    intro slot
    by_cases hmap : ∃ map, e.saves.load e.files .game slot = .ok (some map)
    · obtain ⟨map, hmap⟩ := hmap
      obtain ⟨u, ⟨k, hk, hu⟩, hwrites⟩ := hv.load hmap
      refine .load h hu hk fun map' hmap' => ?_
      cases hmap.symm.trans hmap'
      exact hwrites
    · exact .load h h (List.Subset.refl l) fun map hm => absurd ⟨map, hm⟩ hmap
  by_cases hloads : op.Loads
  · cases op with
    | load slot => exact (List.append_nil l).symm ▸ hload slot
    | quickLoad => exact (List.append_nil l).symm ▸ hload _
    | _ => exact hloads.elim
  · exact .perform h hop fun h => absurd h hloads

/-- Without other saves, every run of an engine takes up only games that were saved in it. -/
theorem chronicle_performAll {config : Config} {parts : EngineParts}
    (hbuild : Engine.build config parts = .ok e) (hsaves : e.saves = .inMemory)
    (hcommands : ∀ k ∈ parts.commands, ∀ c t, k.begin c = .ok t → t.Tame ∧ P t)
    {ops : List Operation}
    (hops : ∀ before op after, ops = before ++ op :: after →
      op.Keeps e.services.shape ∧ op.Entrusts key (e.performAll before)) :
    Chronicle P key (e.movesAll ops) (e.performAll ops) := by
  obtain ⟨Q, hQ⟩ : ∃ Q : List Move → Engine → Prop,
      Q = fun l u => ∃ k, k ⊆ l ∧ Chronicle P key k u := ⟨_, rfl⟩
  have hrun : ∀ (rest : List Operation) (l : List Move) (u : Engine), Chronicle P key l u →
      u.Tame e.services.shape (Wrote (Q l)) →
      (∀ before op after, rest = before ++ op :: after →
        op.Keeps e.services.shape ∧ op.Entrusts key (u.performAll before)) →
      Chronicle P key (l ++ u.movesAll rest) (u.performAll rest) := by
    intro rest
    induction rest with
    | nil => exact fun l u hu _ _ => (List.append_nil l).symm ▸ hu
    | cons op rest ih =>
      intro l u hu htame hrest
      obtain ⟨hkeeps, hentrusts⟩ := hrest [] op rest rfl
      have hnext : Chronicle P key (l ++ u.moves op) (u.perform op) := by
        refine hu.perform_wrote ?_ hentrusts
        have hsaves := htame.saves
        rwa [hQ] at hsaves
      have hspares : op.Spares (Wrote (Q l)) u :=
        spares_of_wrote (hQ ▸ ⟨l, List.Subset.refl l, hu⟩) htame.saves
          (names_of_shape hbuild htame.playback.shape)
      have hafter := htame.perform hkeeps hspares
      have hmono : ∀ v, Q l v → Q (l ++ u.moves op) v := by
        rw [hQ]
        exact fun v ⟨k, hk, hv⟩ => ⟨k, List.Subset.trans hk (List.subset_append_left _ _), hv⟩
      have hend := ih (l ++ u.moves op) (u.perform op) hnext
        ⟨hafter.registry, hafter.playback, hafter.runs, hafter.saves.mono hmono⟩
        fun before op' after heq => hrest (op :: before) op' after (by rw [heq]; rfl)
      rw [List.append_assoc] at hend
      exact hend
  have htame := tame_build hbuild fun k hk c t ht => (hcommands k hk c t ht).1
  exact hrun ops [] e (.build hbuild fun k hk c t ht => (hcommands k hk c t ht).2)
    ⟨htame.registry, htame.playback, htame.runs, _, hsaves, fun slot map h => by cases h⟩ hops

/-- The host of an engine without commands of its own may do all but write to the services. -/
theorem chronicle_of_trusts {config : Config} (hbuild : Engine.build config {} = .ok e)
    {ops : List Operation} (hops : ops.all Operation.trusts = true) :
    Chronicle P key (e.movesAll ops) (e.performAll ops) := by
  have hsaves : e.saves = .inMemory := by
    obtain ⟨-, -, -, -, -, rfl⟩ := build_eq_ok hbuild
    rfl
  refine chronicle_performAll hbuild hsaves (fun _ hk => absurd hk List.not_mem_nil) ?_
  intro before op after heq
  have hmem : op ∈ ops := heq ▸ List.mem_append_right _ List.mem_cons_self
  exact Operation.entrusts_of_trusts (List.all_eq_true.1 hops op hmem) key _ _

end Engine

end Playhead
