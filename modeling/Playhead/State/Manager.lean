import Playhead.State.Stack

/-!
Capturing, restoring and saving the state of a game.
-/

namespace Playhead

inductive StateError where
  | service (e : ServiceError)
  | snapshot (e : SnapshotError)
  | emptySlot (scope : StateScope) (slot : String)
deriving DecidableEq, Repr

def StateError.message : StateError → String
  | .service e => e.message
  | .snapshot e => e.message
  | .emptySlot scope slot => "no " ++ scope.name ++ " state saved in slot `" ++ slot ++ "`"

/-- Which snapshot a rollback restores. -/
inductive RollbackTarget where
  /-- The newest one before the cursor. -/
  | previous
  /-- The newest one before the cursor that the player may roll back to. -/
  | playerAllowed
  /-- The one at a position, counted from the oldest. -/
  | position (n : Nat)
  /-- The newest one captured at a spot. -/
  | spot (s : Spot)
deriving DecidableEq, Repr

/-- Why there is nothing to roll back to. -/
inductive Unavailable where
  | nothingRetained
  | depthExceeded
  | noMatch
  | scriptChanged
  | notPlaying
deriving DecidableEq, Repr

def Unavailable.message : Unavailable → String
  | .nothingRetained => "no snapshots retained"
  | .depthExceeded => "target is beyond the retained rollback depth"
  | .noMatch => "no matching snapshot"
  | .scriptChanged => "script changed since the snapshot was taken"
  | .notPlaying => "nothing is playing"

/-- Where a saved game resumes. -/
structure PlaybackRecord where
  spot : Spot
  revision : UInt64
  played : Nat
  waiting : Bool
deriving DecidableEq, Repr, Inhabited

namespace PlaybackRecord

/-- The name of the record in a save. -/
def id : String := "@playback"

def toJson (p : PlaybackRecord) : Json :=
  .ofFields [("spot", p.spot.toJson), ("revision", .int p.revision.toNat),
    ("played_index", .int p.played), ("waiting_for_input", .bool p.waiting)]

/-- Whether the game waits may be left out. -/
def ofJson? (j : Json) : Option PlaybackRecord := do
  match ← j.fields? ["spot", "revision", "played_index", "waiting_for_input"] with
  | [some spot, some revision, some played, waiting] =>
    let waiting ← match waiting with
      | none => some false
      | some j => j.bool?
    some ⟨← Spot.ofJson? spot, UInt64.ofNat (← revision.word?), ← played.word?, waiting⟩
  | _ => none

end PlaybackRecord

/-- A game save in its parts. -/
structure GameSave where
  records : StateMap
  playback : Option PlaybackRecord
  rollback : List Snapshot

namespace GameSave

/-- The name of the record that holds the newest snapshots. -/
def rollbackId : String := "@rollback"

def isReserved (id : String) : Bool :=
  id.toList.head? = some '@'

/-- Reads a reserved record, if it is there. -/
def readRecord {α : Type} (map : StateMap) (id : String) (read : Json → Option α) :
    Except StateError (Option α) :=
  match map.get? id with
  | none => .ok none
  | some j =>
    match read j with
    | some a => .ok (some a)
    | none => .error (.service (.record id))

def readSnapshots (j : Json) : Option (List Snapshot) := do
  (← j.list?).mapM Snapshot.ofJson?

def verifyAll : List Snapshot → Except SnapshotError Unit
  | [] => .ok ()
  | s :: rest => do
    s.verify
    verifyAll rest

/-- Splits a stored map. Reserved records that are not known are left out. -/
def ofMap (map : StateMap) : Except StateError GameSave := do
  let playback ← readRecord map PlaybackRecord.id PlaybackRecord.ofJson?
  let rollback ← readRecord map rollbackId readSnapshots
  let rollback := rollback.getD []
  (verifyAll rollback).mapError .snapshot
  .ok ⟨map.filter fun id _ => !isReserved id, playback, rollback⟩

end GameSave

/-- The rollback stack, and the maps last collected from or put into each scope. -/
structure StateManager where
  stack : RollbackStack
  maps : ByScope StateMap
deriving Inhabited

namespace StateManager

def empty (depth : Nat) : StateManager := ⟨.empty depth, .all .empty⟩

def map (m : StateManager) (scope : StateScope) : StateMap :=
  m.maps.get scope

def remember (m : StateManager) (scope : StateScope) (map : StateMap) : StateManager :=
  { m with maps := m.maps.set scope map }

/-- Collects a scope and remembers its map. -/
def store (m : StateManager) (s : ServiceSet) (scope : StateScope) :
    StateManager × Except StateError StateMap :=
  match StateMap.collect s scope with
  | .ok map => (m.remember scope map, .ok map)
  | .error e => (m, .error (.service e))

/-- Puts a map into a scope and remembers it. -/
def load (m : StateManager) (s : ServiceSet) (scope : StateScope) (map : StateMap) :
    StateManager × ServiceSet × Except StateError Unit :=
  match map.apply scope s with
  | (s, .ok ()) => (m.remember scope map, s, .ok ())
  | (s, .error e) => (m, s, .error (.service e))

/-- A snapshot of the game that resumes at a spot. -/
def capture (s : ServiceSet) (spot : Spot) (revision : UInt64) (played : Nat) :
    Except StateError Snapshot :=
  match StateMap.collect s .game with
  | .ok records => .ok (.make spot revision played records)
  | .error e => .error (.service e)

/-- Puts the records of a snapshot into the game, if the snapshot is sound. -/
def restore (s : ServiceSet) (x : Snapshot) : ServiceSet × Except StateError Unit :=
  match x.verify with
  | .error e => (s, .error (.snapshot e))
  | .ok () =>
    match x.records.apply .game s with
    | (s, .ok ()) => (s, .ok ())
    | (s, .error e) => (s, .error (.service e))

/-- The newest snapshot before `played` that passes a test. -/
def findWhere (m : StateManager) (played : Nat) (p : Snapshot → Bool) : Except Unavailable Nat :=
  if m.stack.snapshots.isEmpty then .error .nothingRetained
  else
    match m.stack.lastPosition? fun s => s.played < played && p s with
    | some position => .ok position
    | none => .error (if 0 < m.stack.evicted then .depthExceeded else .noMatch)

/-- The position that a rollback from `played` restores. -/
def findTarget (m : StateManager) (target : RollbackTarget) (played : Nat) :
    Except Unavailable Nat :=
  match target with
  | .previous => m.findWhere played fun _ => true
  | .playerAllowed => m.findWhere played (·.allowed)
  | .position n =>
    if m.stack.snapshots.isEmpty then .error .nothingRetained
    else if n < m.stack.size then .ok n
    else .error .noMatch
  | .spot spot => m.findWhere (Decimal.twoTo 64 - 1) fun s => s.spot = spot

/-- The game, where it resumes and the newest snapshots as one map. -/
def saveMap (m : StateManager) (s : ServiceSet) (playback : PlaybackRecord) (steps : Nat) :
    StateManager × Except StateError StateMap :=
  match m.store s .game with
  | (m, .error e) => (m, .error e)
  | (m, .ok map) =>
    let map := map.insert PlaybackRecord.id playback.toJson
    if 0 < steps && !m.stack.snapshots.isEmpty then
      let snapshots := (m.stack.tail steps).map Snapshot.toJson
      (m, .ok (map.insert GameSave.rollbackId (.list snapshots)))
    else (m, .ok map)

end StateManager

end Playhead
