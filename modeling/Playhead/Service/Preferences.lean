import Playhead.Config.Basic
import Playhead.Json.Decode

/-!
The player's preferences and what they fall back to.
-/

namespace Playhead

structure Prefs where
  skipMode : SkipMode
  /-- In milliseconds. -/
  autoPlayDelay : Nat
deriving DecidableEq, Repr, Inhabited

namespace Prefs

def toJson (p : Prefs) : Json :=
  .ofFields [("skip_mode", .text p.skipMode.name), ("auto_play_delay_ms", .int p.autoPlayDelay)]

def ofJson? (j : Json) : Option Prefs := do
  match ← j.fields? ["skip_mode", "auto_play_delay_ms"] with
  | [some mode, some delay] => some ⟨← SkipMode.ofName? (← mode.caseName?), ← delay.word?⟩
  | _ => none

end Prefs

structure Preferences where
  current : Prefs
  defaults : Prefs
deriving DecidableEq, Repr, Inhabited

namespace Preferences

def ofConfig (c : PlayerConfig) : Preferences :=
  ⟨⟨c.skipMode, c.autoPlayDelay⟩, ⟨c.skipMode, c.autoPlayDelay⟩⟩

def setSkipMode (p : Preferences) (mode : SkipMode) : Preferences :=
  { p with current := { p.current with skipMode := mode } }

def setAutoPlayDelay (p : Preferences) (delay : Nat) : Preferences :=
  { p with current := { p.current with autoPlayDelay := delay } }

end Preferences

end Playhead
