import Playhead.Engine.Basic

/-!
Starting, driving and stopping playback.
-/

namespace Playhead.Engine

/-- Starts a script with no history. -/
def beginPlayback (e : Engine) (d : Document) (index : Nat) : Engine :=
  e.cancelPlaybackScope.clearRollback.onPlayback (·.start d index)

def playFrom (e : Engine) (script : String) (index : Nat) : Engine × Except EngineError Unit :=
  match e.loadDocument script with
  | (e, .error err) => (e, .error err)
  | (e, .ok d) =>
    if d.size < index then (e, .error (.jump (.invalidSpot ⟨script, index⟩)))
    else (e.beginPlayback d index, .ok ())

def play (e : Engine) (script : String) : Engine × Except EngineError Unit :=
  e.playFrom script 0

def playStartScript (e : Engine) : Engine × Except EngineError Unit :=
  match e.config.scripts.startScript with
  | some script => e.play script
  | none => (e, .error .noStartScript)

def playFromLabel (e : Engine) (script label : String) : Engine × Except EngineError Unit :=
  match e.loadDocument script with
  | (e, .error err) => (e, .error err)
  | (e, .ok d) =>
    match d.labelIndex? label with
    | some index => (e.beginPlayback d index, .ok ())
    | none => (e, .error (.jump (.unknownLabel script label)))

/-- The resources that the commands of a script name, in order and without repetition. -/
def resourcesOf (registry : Registry) (d : Document) : List String :=
  let all := d.commands.toList.flatMap fun c =>
    match registry.get? c.name with
    | some h => h.resources c
    | none => []
  (NameMap.ofList (all.map fun path => (path, ()))).keys

/-- The other scripts that a script jumps to, in the order of the commands. -/
def scriptsOf (registry : Registry) (d : Document) : List String :=
  let texts := d.commands.toList.flatMap fun c =>
    match registry.get? c.name with
    | some h => h.targets c
    | none => []
  (texts.filterMap fun text =>
    match JumpTarget.parse? text with
    | some (.label (some name) _) => if name = d.name then none else some name
    | _ => none).eraseDups

/-- Looks resources up one after the other and reports those that are not there. -/
def preloadResources (script : String) (total : Nat) : Engine → Nat → List String → Engine × Nat
  | e, loaded, [] => (e, loaded)
  | e, loaded, path :: rest =>
    let e := match e.resources.resolve e.files path with
      | .ok _ => e
      | .error err => e.emit (.fault none ("preload `" ++ path ++ "`: " ++ err.message))
    preloadResources script total (e.emit (.preloadProgress script (loaded + 1) total))
      (loaded + 1) rest

/-- Reads scripts one after the other and reports those that cannot be read. -/
def preloadScripts (script : String) (total : Nat) :
    Engine → Nat → List String → Engine × Except EngineError Unit
  | e, _, [] => (e, .ok ())
  | e, loaded, name :: rest =>
    match e.loadDocument name with
    | (e, .error (.jump (.library (.script .waitTooLong)))) =>
      (e, .error (.ofLibrary (.script .waitTooLong)))
    | (e, read) =>
      let e := match read with
        | .ok _ => e
        | .error err => e.emit (.fault none ("preload script `" ++ name ++ "`: " ++ err.message))
      preloadScripts script total (e.emit (.preloadProgress script (loaded + 1) total))
        (loaded + 1) rest

/-- Looks up what a script names, reads the scripts it jumps to and plays it. -/
def preloadAndPlay (e : Engine) (script : String) : Engine × Except EngineError Unit :=
  match e.loadDocument script with
  | (e, .error err) => (e, .error err)
  | (e, .ok d) =>
    let resources := resourcesOf e.registry d
    let scripts := scriptsOf e.registry d
    let total := resources.length + scripts.length
    let (e, loaded) :=
      preloadResources script total (e.emit (.preloadProgress script 0 total)) 0 resources
    match preloadScripts script total e loaded scripts with
    | (e, .error err) => (e, .error err)
    | (e, .ok ()) => (e.beginPlayback d 0, .ok ())

/-- Goes on after a halt; tells whether there was one. -/
def resume (e : Engine) : Engine × Bool :=
  let (player, resumed) := e.player.resume
  ({ e with playback := { e.playback with player := player } }, resumed)

/-- Stops playback and gives up its history. -/
def stop (e : Engine) : Engine :=
  if e.player.document.isNone then e
  else
    let e := e.cancelPlaybackScope
    let e := if e.cursor.isStopped then e else e.onPlayback (·.stop .requested)
    e.clearRollback

/-- Advances the main script and then every transient one by a time. -/
def tick (e : Engine) (delta : Nanoseconds) : Engine × Except EngineError Unit :=
  let (playback, result) := e.playback.tick e.env delta
  let e := ({ e with playback := playback } : Engine).reapCancelled
  let (transients, scene) := e.transients.tick e.registry e.playback.scopes e.playback.scene delta
    e.config.player.maxCommands
  ({ e with transients := transients, playback := { e.playback with scene := scene } },
    result.mapError .jump)

/-- The player asks to go on. -/
def continueInput (e : Engine) : Engine :=
  e.onPlayback Playback.continueInput

/-- The player asks to leave skipping and auto-play. -/
def cancelInput (e : Engine) : Engine :=
  e.onPlayback fun p => (p.setSkip false).setAutoPlay false

def setSkip (e : Engine) (on : Bool) : Engine :=
  e.onPlayback (·.setSkip on)

def setAutoPlay (e : Engine) (on : Bool) : Engine :=
  e.onPlayback (·.setAutoPlay on)

/-- Runs a text as a transient script in a scope. -/
def playTransient (e : Engine) (name text : String) (scope : CancelScope) :
    Engine × Except EngineError TransientHandle :=
  match Document.parse e.registry e.library.waitByDefault name text with
  | .error err => (e, .error (.ofLibrary (.script err)))
  | .ok d =>
    let (handle, transients) := e.transients.start d scope
    ({ e with transients := transients }, .ok handle)

def cancelTransients (e : Engine) : Engine :=
  let (transients, scopes, scene) := e.transients.cancelAll e.playback.scopes e.playback.scene
  { e with
    transients := transients
    playback := { e.playback with scopes := scopes, scene := scene } }

/-- Puts every service back to its first state in the game. -/
def resetState (e : Engine) : Engine :=
  e.withServices (StateMap.reset .game e.services)

/-- Bounds how many snapshots are kept. -/
def setRollbackDepth (e : Engine) (depth : Nat) : Engine :=
  let (stack, evicted) := e.stack.setDepth depth
  let e := e.withStack stack
  e.onPlayback fun p =>
    { p with scene := p.scene.emitAll (evicted.map fun s => .snapshotEvicted s.played) }

end Playhead.Engine
