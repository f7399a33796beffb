import Playhead.Config.Basic
import Playhead.Json.Decode

/-!
Configurations as records. Sections and fields may be left out and then have their defaults; fields
of other names do not matter.
-/

namespace Playhead

/-- A field that may be absent. -/
def Json.orElse {α : Type} (default : α) (read : Json → Option α) : Option Json → Option α
  | none => some default
  | some j => read j

namespace PlayerConfig

def toFields (c : PlayerConfig) : List (String × Json) :=
  [("auto_play_delay_ms", .int c.autoPlayDelay), ("skip_mode", .text c.skipMode.name),
   ("max_commands_per_tick", .int c.maxCommands), ("wait_by_default", .bool c.waitByDefault),
   ("fast_forward_limit", .int c.fastForwardLimit)]

def ofJson? (j : Json) : Option PlayerConfig := do
  let d : PlayerConfig := {}
  match ← j.fields? (d.toFields.map (·.1)) with
  | [delay, mode, commands, wait, limit] =>
    some {
      autoPlayDelay := ← Json.orElse d.autoPlayDelay Json.word? delay
      skipMode := ← Json.orElse d.skipMode (fun j => j.caseName?.bind SkipMode.ofName?) mode
      maxCommands := ← Json.orElse d.maxCommands Json.word? commands
      waitByDefault := ← Json.orElse d.waitByDefault Json.bool? wait
      fastForwardLimit := ← Json.orElse d.fastForwardLimit Json.word? limit }
  | _ => none

end PlayerConfig

namespace StateConfig

def toFields (c : StateConfig) : List (String × Json) :=
  [("rollback_depth", .int c.rollbackDepth), ("saved_rollback_steps", .int c.savedSteps),
   ("quick_save_slot", .text c.quickSlot)]

def ofJson? (j : Json) : Option StateConfig := do
  let d : StateConfig := {}
  match ← j.fields? (d.toFields.map (·.1)) with
  | [depth, steps, slot] =>
    some {
      rollbackDepth := ← Json.orElse d.rollbackDepth Json.word? depth
      savedSteps := ← Json.orElse d.savedSteps Json.word? steps
      quickSlot := ← Json.orElse d.quickSlot Json.text? slot }
  | _ => none

end StateConfig

namespace ScriptsConfig

def toFields (c : ScriptsConfig) : List (String × Json) :=
  ("root", .text c.root) :: (c.startScript.map fun s => ("start_script", .text s)).toList

def ofJson? (j : Json) : Option ScriptsConfig := do
  let d : ScriptsConfig := {}
  match ← j.fields? ["root", "start_script"] with
  | [root, start] =>
    some {
      root := ← Json.orElse d.root Json.text? root
      startScript := ← Json.optionalText? start }
  | _ => none

end ScriptsConfig

namespace Config

/-- The sections of a configuration with their fields. -/
def sections (c : Config) : List (String × List (String × Json)) :=
  [("player", c.player.toFields), ("state", c.state.toFields), ("scripts", c.scripts.toFields)]

def toJson (c : Config) : Json :=
  .record (c.sections.map fun e => (e.1, .record e.2))

def ofJson? (j : Json) : Option Config := do
  let d : Config := {}
  match ← j.fields? (d.sections.map (·.1)) with
  | [player, state, scripts] =>
    some {
      player := ← Json.orElse d.player PlayerConfig.ofJson? player
      state := ← Json.orElse d.state StateConfig.ofJson? state
      scripts := ← Json.orElse d.scripts ScriptsConfig.ofJson? scripts }
  | _ => none

end Config

end Playhead
