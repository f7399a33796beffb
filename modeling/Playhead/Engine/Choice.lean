import Playhead.Engine.Play

/-!
Selecting a presented option.
-/

namespace Playhead.Engine

/-- Where an option leads. If that cannot be told, the options are dropped and playback stops. -/
def choiceDestination (e : Engine) (index : Nat) (goto : Option String) :
    Engine × Except EngineError (Option (Document × Nat)) :=
  match goto with
  | none => (e, .ok none)
  | some text =>
    match JumpTarget.parse? text with
    | none =>
      (e.emit (.fault none ("choice " ++ Decimal.digitsText index ++ ": invalid target `" ++
        text ++ "`")), .ok none)
    | some target =>
      match e.playback.resolveJump e.env target with
      | (p, .ok destination) => ({ e with playback := p }, .ok (some destination))
      | (p, .error err) =>
        let s := p.services
        let p := p.withServices { s with choices := s.choices.map fun _ => .empty }
        ({ e with playback := p.stop (.fault err.message) }, .error (.jump err))

/-- Applies the assignments of an option. -/
def applyChoiceSet (e : Engine) (o : ChoiceOption) : Engine :=
  match o.set with
  | none => e
  | some text =>
    let applied : Except ExprError ServiceSet := do
      let assignments ← Assignment.parseAll text
      match e.services.variableStore with
      | none => .ok e.services
      | some vars =>
        let vars ← vars.apply assignments
        .ok { e.services with variableStore := some vars }
    match applied with
    | .ok s => e.withServices s
    | .error err => e.emit (.fault none ("choice `" ++ o.text ++ "` set: " ++ err.message))

/-- Runs the script of an option in a scope below that of playback. -/
def startChoiceScript (e : Engine) (o : ChoiceOption) : Engine × Except EngineError Unit :=
  match o.script with
  | none => (e, .ok ())
  | some text =>
    let (scope, scopes) := e.playback.scopes.child e.player.scope
    match (e.withScopes scopes).playTransient "choice" text scope with
    | (e, .ok _) => (e, .ok ())
    | (e, .error err) => (e, .error err)

/-- Selects an option: applies its assignments, runs its script, and jumps or goes on. -/
def selectChoice (e : Engine) (index : Nat) : Engine × Except EngineError Unit :=
  if !e.player.isRunning then (e, .error (.jump .notPlaying))
  else
    match e.services.pendingChoices[index]? with
    | none => (e, .error (.noSuchChoice index))
    | some o =>
      match e.choiceDestination index o.goto with
      | (e, .error err) => (e, .error err)
      | (e, .ok destination) =>
        let s := e.services
        let e := e.withServices { s with choices := s.choices.map fun _ => .empty }
        match (e.applyChoiceSet o).startChoiceScript o with
        | (e, .error err) => (e, .error err)
        | (e, .ok ()) =>
          match destination with
          | some (d, next) => (e.onPlayback (·.moveTo d next .endOfScript), .ok ())
          | none => (e.continueInput, .ok ())

end Playhead.Engine
