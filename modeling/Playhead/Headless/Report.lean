import Playhead.Json.Printer

/-!
Reports of runs without a frontend.
-/

namespace Playhead

structure ChoiceRecord where
  options : List String
  picked : Nat
deriving DecidableEq, Repr

structure RunReport where
  script : String
  /-- Whether playback stopped in time. -/
  finished : Bool := false
  ticks : Nat := 0
  stopReason : Option String := none
  lines : List String := []
  choices : List ChoiceRecord := []
  faults : List String := []
  /-- How many snapshots are retained at the end. -/
  snapshots : Nat := 0
  evicted : Nat := 0
deriving DecidableEq, Repr

namespace RunReport

/-- The fields in the order in which a report is written. -/
def toJson (r : RunReport) : Json :=
  .record [("script", .text r.script), ("finished", .bool r.finished), ("ticks", .int r.ticks),
    ("stop_reason", .ofOption .text r.stopReason), ("lines", .ofStrings r.lines),
    ("choices", .list (r.choices.map fun c =>
      .record [("options", .ofStrings c.options), ("picked", .int c.picked)])),
    ("faults", .ofStrings r.faults), ("snapshots", .int r.snapshots),
    ("evicted_snapshots", .int r.evicted)]

def text (r : RunReport) : String :=
  r.toJson.pretty

end RunReport

end Playhead
