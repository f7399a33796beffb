import Playhead.Engine.Basic
import Playhead.Inspect.Script

/-!
Where playback is and what happened in it, as JSON for tools.
-/

namespace Playhead

def Spot.inspect (s : Spot) : Json :=
  .text s.text

namespace Snapshot

/-- The spot and the count of a snapshot, `w` if it waits, `p` if the player may go there. -/
def brief (s : Snapshot) : String :=
  s.spot.text ++ "@" ++ Decimal.digitsText s.played ++ (if s.waiting then "w" else "") ++
    (if s.allowed then "p" else "")

def inspect (s : Snapshot) : Json :=
  .record [("version", .int s.version), ("spot", s.spot.inspect),
    ("revision", .text (Document.revisionText s.revision)), ("played", .int s.played),
    ("waiting", .bool s.waiting), ("allow", .bool s.allowed), ("records", .ofMap s.records),
    ("checksum", .text (Json.hexText 16 s.checksum.toNat))]

end Snapshot

def PlaybackRecord.inspect (p : PlaybackRecord) : Json :=
  .record [("spot", p.spot.inspect), ("revision", .text (Document.revisionText p.revision)),
    ("played", .int p.played), ("waiting", .bool p.waiting)]

def Cursor.inspect (c : Cursor) : Json :=
  .record [("script", .text c.script), ("revision", .text (Document.revisionText c.revision)),
    ("index", .ofOption (fun (i : Nat) => .int i) c.index), ("played", .int c.played),
    ("waiting", .bool c.waiting), ("skipping", .bool c.skipping), ("auto", .bool c.autoPlaying),
    ("sync", .bool c.synchronizing)]

def PlayerStatus.name : PlayerStatus → String
  | .idle => "Idle"
  | .playing => "Playing"
  | .waitingForInput => "WaitingForInput"
  | .skipping => "Skipping"
  | .autoPlaying => "AutoPlaying"
  | .stopped => "Stopped"

def TransientStatus.inspect : TransientStatus → Json
  | .running => .text "Running"
  | .completed => .text "Completed"
  | .cancelled => .text "Cancelled"
  | .failed message => .ofTag "Failed" (.text message)

/-- An event as its name and what belongs to it. -/
def Event.inspect (e : Event) : Json :=
  let spot? : Option Spot → Json := .ofOption Spot.inspect
  .list <| match e with
  | .play script => [.text "Play", .text script]
  | .commandExecuted spot command => [.text "CommandExecuted", spot.inspect, .text command]
  | .rollbackStarted source target => [.text "RollbackStarted", spot? source, target.inspect]
  | .preloadProgress script loaded total =>
    [.text "PreloadProgress", .text script, .int loaded, .int total,
      .ofOption .number (Decimal.float? (preloadFraction loaded total).toList)]
  | .waitingForInput spot => [.text "WaitingForInput", spot? spot]
  | .choicePresented options =>
    [.text "ChoicePresented", .list (options.map ChoiceOption.toJson)]
  | .fault spot message => [.text "Fault", spot? spot, .text message]
  | .snapshotEvicted played => [.text "SnapshotEvicted", .int played]
  | .stopped (.fault message) => [.text "Stopped", .text "Fault", .text message]
  | .stopped reason => [.text "Stopped", .text reason.name]
  | .skipChanged on => [.text "SkipChanged", .bool on]
  | .autoPlayChanged on => [.text "AutoPlayChanged", .bool on]
  | .transientFinished handle status =>
    [.text "TransientFinished", .text handle.text, status.inspect]

def Unavailable.name : Unavailable → String
  | .nothingRetained => "NothingRetained"
  | .depthExceeded => "DepthExceeded"
  | .noMatch => "NoMatchingSnapshot"
  | .scriptChanged => "ScriptChanged"
  | .notPlaying => "NotPlaying"

end Playhead
