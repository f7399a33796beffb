import Playhead.Command.Builtin
import Playhead.Config.Basic
import Playhead.Playback.Tick
import Playhead.Playback.Transient
import Playhead.Save.Slots

/-!
The engine: the main player and the transient scripts over one scene, with the scripts they come
from and the slots they are saved in.
-/

namespace Playhead

inductive EngineError where
  | jump (e : JumpError)
  | noStartScript
  | noSuchChoice (index : Nat)
  | state (e : StateError)
  | save (e : SaveError)
  | config (e : ConfigError)
  | registry (e : RegistryError)
deriving DecidableEq, Repr

namespace EngineError

def message : EngineError → String
  | .jump e => e.message
  | .noStartScript => "no start script configured"
  | .noSuchChoice index => "choice option " ++ Decimal.digitsText index ++ " is not pending"
  | .state e => e.message
  | .save e => e.message
  | .config e => e.message
  | .registry e => e.message

def ofLibrary (e : LibraryError) : EngineError :=
  .jump (.library e)

/-- Whether a script asks for more time than a clock holds. -/
def isTooLong (e : EngineError) : Bool :=
  e = ofLibrary (.script .waitTooLong)

end EngineError

structure Engine where
  config : Config
  registry : Registry
  resources : Resources
  files : FileTree
  saves : SaveSlots
  playback : Playback
  transients : TransientRunner

/-- What an engine is built from beside its configuration. -/
structure EngineParts where
  resources : Resources := .memory .empty
  files : FileTree := .empty
  saves : SaveSlots := .inMemory
  services : List HostService := []
  commands : List Handler := []
  scopes : Cancellations := .empty

namespace Engine

def registerServices (s : ServiceSet) : List HostService → Except ServiceError ServiceSet
  | [] => .ok s
  | h :: rest => do registerServices (← s.register h) rest

/-- An engine at rest, unless its configuration or the names of its parts are refused. -/
def build (config : Config) (parts : EngineParts) : Except EngineError Engine := do
  config.check.mapError .config
  let registry ← (Registry.builtin.registerAll parts.commands).mapError .registry
  let services := ServiceSet.builtin (.ofConfig config.player)
  let services ← (registerServices services parts.services).mapError fun e => .state (.service e)
  let (scope, scopes) := parts.scopes.root
  .ok {
    config := config
    registry := registry
    resources := parts.resources
    files := parts.files
    saves := parts.saves
    transients := .empty
    playback := {
      player := .inScope scope
      scene := ⟨services, []⟩
      manager := .empty config.state.rollbackDepth
      library := .empty config.scripts.root config.player.waitByDefault
      scopes := scopes } }

def source (e : Engine) : ScriptLibrary.Source :=
  ⟨e.registry, e.files, e.resources⟩

def env (e : Engine) : Env :=
  ⟨e.source, e.config.player⟩

def player (e : Engine) : Player :=
  e.playback.player

def cursor (e : Engine) : Cursor :=
  e.playback.player.cursor

def status (e : Engine) : PlayerStatus :=
  e.playback.player.status

def services (e : Engine) : ServiceSet :=
  e.playback.scene.services

def stack (e : Engine) : RollbackStack :=
  e.playback.manager.stack

def library (e : Engine) : ScriptLibrary :=
  e.playback.library

def withServices (e : Engine) (s : ServiceSet) : Engine :=
  { e with playback := e.playback.withServices s }

def withManager (e : Engine) (m : StateManager) : Engine :=
  { e with playback := { e.playback with manager := m } }

def withStack (e : Engine) (s : RollbackStack) : Engine :=
  e.withManager { e.playback.manager with stack := s }

def withScopes (e : Engine) (c : Cancellations) : Engine :=
  { e with playback := { e.playback with scopes := c } }

def emit (e : Engine) (event : Event) : Engine :=
  { e with playback := e.playback.emit event }

/-- Changes main playback. -/
def onPlayback (e : Engine) (f : Playback → Playback) : Engine :=
  { e with playback := f e.playback }

/-- Hands over the events that happened since the last time. -/
def drainEvents (e : Engine) : List Event × Engine :=
  (e.playback.scene.events,
    e.onPlayback fun p => { p with scene := { p.scene with newest := [] } })

/-- Ends every transient script whose scope is cancelled. -/
def reapCancelled (e : Engine) : Engine :=
  let (transients, scene) := e.transients.reapCancelled e.playback.scopes e.playback.scene
  { e with transients := transients, playback := { e.playback with scene := scene } }

/-- Drops the command in flight and every transient script in the scope of playback, and opens a
new scope. -/
def cancelPlaybackScope (e : Engine) : Engine :=
  let e := e.onPlayback Playback.cancelActive
  let e := e.withScopes (e.playback.scopes.cancel e.player.scope)
  e.reapCancelled.onPlayback Playback.renewScope

/-- Gives up rollback history. -/
def clearRollback (e : Engine) : Engine :=
  e.withStack e.stack.clear

/-- A script by name, read on its first use. -/
def loadDocument (e : Engine) (name : String) : Engine × Except EngineError Document :=
  match e.library.load e.source name with
  | .ok (d, library) => ({ e with playback := { e.playback with library := library } }, .ok d)
  | .error err => (e, .error (.ofLibrary err))

/-- Stops playback of a script whose content has changed. -/
def scriptReplaced (e : Engine) (d : Document) : Engine :=
  let c := e.cursor
  if e.player.document.isSome && !c.isStopped && c.script = d.name && c.revision ≠ d.revision then
    e.cancelPlaybackScope.onPlayback (·.stop .scriptReloaded)
  else e

/-- Takes in a script that was read anew. -/
def replaceScript (e : Engine) (read : Except LibraryError (Document × ScriptLibrary)) :
    Engine × Except EngineError Document :=
  match read with
  | .error err => (e, .error (.ofLibrary err))
  | .ok (d, library) =>
    (({ e with playback := { e.playback with library := library } } : Engine).scriptReplaced d,
      .ok d)

/-- Takes a text as a script, in place of an earlier one of its name. -/
def loadScript (e : Engine) (name text : String) : Engine × Except EngineError Document :=
  e.replaceScript (e.library.insert e.registry name text)

/-- Reads a script again. -/
def reloadScript (e : Engine) (name : String) : Engine × Except EngineError Document :=
  e.replaceScript (e.library.reload e.source name)

end Engine

end Playhead
