import Playhead.Digest.XXH3
import Playhead.Playback.Spot
import Playhead.State.Map

/-!
Snapshots of a game at the boundary between two commands.

A checksum over position and records lets a snapshot that was altered be told from one that was
captured.
-/

namespace Playhead

structure Snapshot where
  version : Nat
  /-- Where playback resumes. -/
  spot : Spot
  /-- Revision of the script of the spot. -/
  revision : UInt64
  /-- How many commands were started before. -/
  played : Nat
  /-- Whether playback waits for input when it resumes. -/
  waiting : Bool
  /-- Whether the player may roll back to here. -/
  allowed : Bool
  records : StateMap
  checksum : UInt64
deriving Inhabited

inductive SnapshotError where
  | version (expected found : Nat)
  | checksum (spot : Spot) (expected found : UInt64)
deriving DecidableEq, Repr

def SnapshotError.message : SnapshotError → String
  | .version expected found =>
    "snapshot version " ++ Decimal.digitsText found ++ " is not supported (expected " ++
      Decimal.digitsText expected ++ ")"
  | .checksum spot expected found =>
    "snapshot checksum mismatch at " ++ spot.text ++ " (expected 0x" ++
      Json.hexText 16 expected.toNat ++ ", found 0x" ++ Json.hexText 16 found.toNat ++ ")"

namespace Snapshot

/-- The version of snapshots that are made and accepted. -/
def currentVersion : Nat := 1

/-- A number in eight bytes, the lowest first. -/
def wordBytes (n : Nat) : ByteArray :=
  ⟨((List.range 8).map fun i => UInt8.ofNat (n >>> (8 * i))).toArray⟩

def zeroByte : ByteArray := ⟨#[0]⟩

/-- Every record as its name and its text, each ended by a zero byte. -/
def recordBytes (records : StateMap) : ByteArray :=
  records.entries.foldl
    (fun bytes e => bytes ++ e.1.toUTF8 ++ zeroByte ++ e.2.compact.toUTF8 ++ zeroByte)
    ByteArray.empty

/-- What the checksum is taken over. -/
def checksumBytes (spot : Spot) (revision : UInt64) (played : Nat) (records : StateMap) :
    ByteArray :=
  spot.script.toUTF8 ++ wordBytes spot.index ++ wordBytes revision.toNat ++ wordBytes played ++
    recordBytes records

def checksumOf (spot : Spot) (revision : UInt64) (played : Nat) (records : StateMap) : UInt64 :=
  XXH3.hash (checksumBytes spot revision played records)

/-- A snapshot with its checksum. It does not wait, and the player may roll back to it. -/
def make (spot : Spot) (revision : UInt64) (played : Nat) (records : StateMap) : Snapshot where
  version := currentVersion
  spot := spot
  revision := revision
  played := played
  waiting := false
  allowed := true
  records := records
  checksum := checksumOf spot revision played records

/-- Checks version and checksum. -/
def verify (s : Snapshot) : Except SnapshotError Unit :=
  if s.version ≠ currentVersion then .error (.version currentVersion s.version)
  else
    let found := checksumOf s.spot s.revision s.played s.records
    if found ≠ s.checksum then .error (.checksum s.spot s.checksum found) else .ok ()

/-- Fields in the order in which a snapshot is written on its own. -/
def fields (s : Snapshot) : List (String × Json) :=
  [("version", .int s.version),
   ("spot", .record [("script", .text s.spot.script), ("index", .int s.spot.index)]),
   ("revision", .int s.revision.toNat),
   ("played_index", .int s.played),
   ("waiting_for_input", .bool s.waiting),
   ("allow_player_rollback", .bool s.allowed),
   ("records", .ofMap s.records),
   ("checksum", .int s.checksum.toNat)]

/-- A snapshot as a record of a save. -/
def toJson (s : Snapshot) : Json :=
  .ofFields (s.fields.map fun e => if e.1 = "spot" then (e.1, s.spot.toJson) else e)

def ofJson? (j : Json) : Option Snapshot := do
  match ← j.fields? ["version", "spot", "revision", "played_index", "waiting_for_input",
      "allow_player_rollback", "records", "checksum"] with
  | [some version, some spot, some revision, some played, some (.bool waiting),
      some (.bool allowed), some records, some checksum] =>
    some {
      version := ← version.below? (Decimal.twoTo 32)
      spot := ← Spot.ofJson? spot
      revision := UInt64.ofNat (← revision.word?)
      played := ← played.word?
      waiting := waiting
      allowed := allowed
      records := ← records.map?
      checksum := UInt64.ofNat (← checksum.word?) }
  | _ => none

end Snapshot

end Playhead
