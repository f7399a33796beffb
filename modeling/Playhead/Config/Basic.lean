import Playhead.Text.Basic

/-!
Engine configuration: playback scheduling, rollback and saves, and where scripts lie.
-/

namespace Playhead

/-- What skipping may pass: commands that were read before, or everything. -/
inductive SkipMode where
  | readOnly
  | everything
deriving DecidableEq, Repr, Inhabited

namespace SkipMode

def name : SkipMode → String
  | .readOnly => "read_only"
  | .everything => "everything"

def ofName? (s : String) : Option SkipMode :=
  if s = "read_only" then some .readOnly
  else if s = "everything" then some .everything
  else none

end SkipMode

structure PlayerConfig where
  /-- Milliseconds before auto-play leaves an input wait. -/
  autoPlayDelay : Nat := 1500
  skipMode : SkipMode := .readOnly
  /-- How many commands one tick may start. -/
  maxCommands : Nat := 256
  /-- Whether a line of text waits for input after it is printed. -/
  waitByDefault : Bool := true
  /-- How many commands a rewind may play forward. -/
  fastForwardLimit : Nat := 10000
deriving DecidableEq, Repr, Inhabited

structure StateConfig where
  rollbackDepth : Nat := 128
  /-- How many of the newest snapshots a save keeps. -/
  savedSteps : Nat := 16
  quickSlot : String := "quick"
deriving DecidableEq, Repr, Inhabited

structure ScriptsConfig where
  root : String := "scripts"
  startScript : Option String := none
deriving DecidableEq, Repr, Inhabited

structure Config where
  player : PlayerConfig := {}
  state : StateConfig := {}
  scripts : ScriptsConfig := {}
deriving DecidableEq, Repr, Inhabited

inductive ConfigError where
  /-- The file cannot be read or written. -/
  | unreadable (path : String)
  /-- The text is no configuration. -/
  | malformed
  | noCommands
  | noQuickSlot
deriving DecidableEq, Repr

def ConfigError.message : ConfigError → String
  | .unreadable path => "failed to read config " ++ path
  | .malformed => "invalid config"
  | .noCommands => "invalid config value: player.max_commands_per_tick must be at least 1"
  | .noQuickSlot => "invalid config value: state.quick_save_slot must not be empty"

/-- Refuses values the engine cannot run with. -/
def Config.check (c : Config) : Except ConfigError Unit :=
  if c.player.maxCommands = 0 then .error .noCommands
  else if (Text.trim c.state.quickSlot.toList).isEmpty then .error .noQuickSlot
  else .ok ()

end Playhead
