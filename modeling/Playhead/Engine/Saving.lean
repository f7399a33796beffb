import Playhead.Engine.Play

/-!
Saving to slots and loading from them.
-/

namespace Playhead.Engine

/-- The slot of the global state. -/
def globalSlot : String := "global"

def settingsSlot : String := "settings"

/-- Where a save made now resumes. A command in flight is not committed, so the save resumes at it
and does not count it as played. -/
def playbackRecord? (e : Engine) : Option PlaybackRecord :=
  let c := e.cursor
  c.spot?.map fun spot =>
    ⟨spot, c.revision, if e.player.active.isSome then c.played - 1 else c.played, c.waiting⟩

def saveSpot? (e : Engine) : Option Spot :=
  e.playbackRecord?.map (·.spot)

/-- Puts a map into a slot. -/
def saveMap (e : Engine) (scope : StateScope) (slot : String) (map : StateMap) :
    Engine × Except EngineError Unit :=
  let (files, saves, result) := e.saves.save e.files scope slot map
  ({ e with files := files, saves := saves }, result.mapError .save)

/-- Saves the game, its position and its newest snapshots. -/
def saveGame (e : Engine) (slot : String) : Engine × Except EngineError Unit :=
  match e.playbackRecord? with
  | none => (e, .error (.jump .notPlaying))
  | some record =>
    match e.playback.manager.saveMap e.services record e.config.state.savedSteps with
    | (m, .error err) => (e.withManager m, .error (.state err))
    | (m, .ok map) => (e.withManager m).saveMap .game slot map

/-- What a game save holds and the script it resumes in. -/
def readGame (e : Engine) (slot : String) :
    Engine × Except EngineError (GameSave × PlaybackRecord × Document) :=
  let read : Except EngineError (GameSave × PlaybackRecord) := do
    match ← (e.saves.load e.files .game slot).mapError .save with
    | none => .error (.state (.emptySlot .game slot))
    | some map =>
      let save ← (GameSave.ofMap map).mapError .state
      match save.playback with
      | none => .error (.state (.service (.record PlaybackRecord.id)))
      | some record => .ok (save, record)
  match read with
  | .error err => (e, .error err)
  | .ok (save, record) =>
    match e.loadDocument record.spot.script with
    | (e, .error err) => (e, .error err)
    | (e, .ok d) =>
      if d.size < record.spot.index then (e, .error (.jump (.invalidSpot record.spot)))
      else (e, .ok (save, record, d))

/-- Takes up a saved game at its position. Its snapshots are dropped if the script has changed. -/
def loadGame (e : Engine) (slot : String) : Engine × Except EngineError Unit :=
  match e.readGame slot with
  | (e, .error err) => (e, .error err)
  | (e, .ok (save, record, d)) =>
    let e := e.cancelPlaybackScope
    match e.playback.manager.load e.services .game save.records with
    | (m, s, .error err) => ((e.withManager m).withServices s, .error (.state err))
    | (m, s, .ok ()) =>
      let snapshots := if d.revision = record.revision then save.rollback else []
      let e := ((e.withManager m).withServices s).withStack (e.stack.replace snapshots)
      (e.onPlayback (·.restorePosition d record.spot.index record.played record.waiting), .ok ())

def quickSave (e : Engine) : Engine × Except EngineError Unit :=
  e.saveGame e.config.state.quickSlot

def quickLoad (e : Engine) : Engine × Except EngineError Unit :=
  e.loadGame e.config.state.quickSlot

/-- Empties a game slot; tells whether it held a save. -/
def deleteGame (e : Engine) (slot : String) : Engine × Except EngineError Bool :=
  let (files, saves, result) := e.saves.delete e.files .game slot
  ({ e with files := files, saves := saves }, result.mapError .save)

def gameSlots (e : Engine) : Except EngineError (List String) :=
  (e.saves.list e.files .game).mapError .save

/-- Saves a whole scope. -/
def saveScope (e : Engine) (scope : StateScope) (slot : String) :
    Engine × Except EngineError Unit :=
  match e.playback.manager.store e.services scope with
  | (m, .error err) => (e.withManager m, .error (.state err))
  | (m, .ok map) => (e.withManager m).saveMap scope slot map

/-- Loads a whole scope; tells whether it was saved. -/
def loadScope (e : Engine) (scope : StateScope) (slot : String) :
    Engine × Except EngineError Bool :=
  match e.saves.load e.files scope slot with
  | .error err => (e, .error (.save err))
  | .ok none => (e, .ok false)
  | .ok (some map) =>
    match e.playback.manager.load e.services scope map with
    | (m, s, .error err) => ((e.withManager m).withServices s, .error (.state err))
    | (m, s, .ok ()) => ((e.withManager m).withServices s, .ok true)

def saveGlobal (e : Engine) : Engine × Except EngineError Unit :=
  e.saveScope .global globalSlot

def loadGlobal (e : Engine) : Engine × Except EngineError Bool :=
  e.loadScope .global globalSlot

def saveSettings (e : Engine) : Engine × Except EngineError Unit :=
  e.saveScope .settings settingsSlot

def loadSettings (e : Engine) : Engine × Except EngineError Bool :=
  e.loadScope .settings settingsSlot

end Playhead.Engine
