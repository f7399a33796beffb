import Playhead.Playback.Spot
import Playhead.Text.Basic
import Playhead.Text.Printable

/-!
Where jumps go.
-/

namespace Playhead

inductive JumpTarget where
  /-- A label, or the start of a script when none is named; without a script, in the one that
  plays. -/
  | label (script label : Option String)
  | spot (s : Spot)
deriving DecidableEq, Repr, Inhabited

namespace JumpTarget

/-- Reads `.Label`, `Script.Label` or `Script`; blanks around the names do not matter. -/
def parse? (text : String) : Option JumpTarget :=
  let cs := Text.trim text.toList
  let script := Text.trim (cs.takeWhile (· != '.'))
  let named : Option String := if script.isEmpty then none else some (String.ofList script)
  match cs.dropWhile (· != '.') with
  | [] => named.map fun s => .label (some s) none
  | _ :: rest =>
    let label := Text.trim rest
    if label.isEmpty then none else some (.label named (some (String.ofList label)))

def describeName : Option String → String
  | some s => "Some(" ++ Text.quoted s ++ ")"
  | none => "None"

/-- A target as messages show it. -/
def describe : JumpTarget → String
  | .label script name =>
    "Label \x7b script: " ++ describeName script ++ ", label: " ++ describeName name ++ " \x7d"
  | .spot s =>
    "Spot(PlaybackSpot \x7b script: " ++ Text.quoted s.script ++ ", index: " ++
      Decimal.digitsText s.index ++ " \x7d)"

end JumpTarget

end Playhead
