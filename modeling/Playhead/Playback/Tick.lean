import Playhead.Playback.Player

/-!
Playing the main script.

A tick steps the command in flight. When it completes, playback moves to the next position, takes a
snapshot there and starts the command at it, and so on until a command suspends, playback waits or
stops, or the tick has started as many commands as it may.
-/

namespace Playhead

/-- What became of starting the next command. -/
inductive Begin where
  /-- A command is now in flight. -/
  | started
  /-- A command faulted at its start and is passed. -/
  | completed
  /-- There is nothing to start. -/
  | idle
deriving DecidableEq, Repr

namespace Playback

def reportFault (p : Playback) (s : Spot) (message : String) : Playback :=
  p.emit (.fault (some s) message)

/-- Captures the state at the next position. A state that has no record is left out. -/
def capture (p : Playback) (d : Document) (next : Nat) (c : Completion) : Playback :=
  match StateManager.capture p.services ⟨d.name, next⟩ d.revision p.cursor.played with
  | .error _ => p
  | .ok snapshot =>
    let snapshot := { snapshot with
      waiting := c.waitForInput
      allowed := c.allowRollback && c.waitForInput }
    let (stack, evicted) := p.manager.stack.push snapshot
    let p := { p with manager := { p.manager with stack := stack } }
    match evicted with
    | some s => p.emit (.snapshotEvicted s.played)
    | none => p

/-- Forbids the player to roll back past a command that does not allow it. -/
def lockNewest (p : Playback) (allow : Bool) : Playback :=
  if allow then p
  else { p with manager := { p.manager with stack := p.manager.stack.allowNewest false } }

/-- Where playback goes after a command. -/
def follow (env : Env) (p : Playback) (d : Document) (index : Nat) (flow : Flow) :
    Playback × Except JumpError (Document × Nat) :=
  match flow with
  | .advance | .stop => (p, .ok (d, index + 1))
  | .branch taken =>
    let (next, byBranch) := d.branchNext index taken
    ({ p with player := { p.player with arrivedByBranch := byBranch } }, .ok (d, next))
  | .jump target => p.resolveJump env target

/-- Whether the command at an index adds to the options that are pending. -/
def addsChoice (registry : Registry) (d : Document) (index : Nat) : Bool :=
  match (d.command? index).bind fun c => registry.get? c.name with
  | some h => h.name = "choice"
  | none => false

/-- Waits or halts at the position after a command, as the command asks. -/
def settle (p : Playback) (c : Completion) (addsChoice : Bool) : Playback :=
  if p.cursor.isStopped then p
  else if c.flow = .stop then
    { p with player := { p.player with halted := true } }.emit (.stopped .command)
  else if p.choicesPending && !addsChoice then p.presentChoices
  else if c.waitForInput && !p.cursor.skipping then p.enterWait
  else p

/-- Moves on after a command. A jump that leads nowhere stops playback. -/
def complete (env : Env) (p : Playback) (index : Nat) (c : Completion) (eligible : Bool) :
    Playback × Except JumpError Unit :=
  match p.player.document with
  | none => (p, .ok ())
  | some d =>
    match p.follow env d index c.flow with
    | (p, .error e) => (p.stop (.fault e.message), .error e)
    | (p, .ok (next, i)) =>
      let p := p.lockNewest c.allowRollback
      let p := if eligible && i < next.size then p.capture next i c else p
      let atEnd : StopReason := if c.flow = .stop then .command else .endOfScript
      let p := p.moveTo next i atEnd
      (p.settle c (addsChoice env.source.registry next i), .ok ())

/-- Marks a command as read. Skipping that may only pass what was read ends at any other. -/
def trackRead (env : Env) (p : Playback) (s : Spot) : Playback :=
  match p.services.played with
  | none => p
  | some played =>
    let wasRead := played.isPlayed s.script s.index
    let p := p.withServices { p.services with played := some (played.mark s.script s.index) }
    let mode := (p.services.preferences.map (·.current.skipMode)).getD env.config.skipMode
    if p.cursor.skipping && !wasRead && p.player.fastForward.isNone && mode = .readOnly then
      p.setSkip false
    else p

/-- Starts a command. -/
def begin (env : Env) (p : Playback) (d : Document) (index : Nat) (c : Command) (h : Handler) :
    Playback × Except JumpError Begin :=
  let spot : Spot := ⟨d.name, index⟩
  let p := p.withCursor { p.cursor with played := p.cursor.played + 1 }
  let p := (p.trackRead env spot).emit (.commandExecuted spot c.name)
  match h.begin c with
  | .ok task =>
    ({ p with player := { p.player with active := some ⟨index, task, h.eligible⟩ } },
      .ok .started)
  | .error f =>
    match (p.reportFault spot f.message).complete env index (.ofFault c.role) h.eligible with
    | (p, .ok ()) => (p, .ok .completed)
    | (p, .error e) => (p, .error e)

/-- Ends a run forward at its target or after it; tells whether it has ended. -/
def checkForward (p : Playback) (d : Document) (index : Nat) : Playback × Bool :=
  match p.player.fastForward with
  | none => (p, false)
  | some f =>
    if f.script = d.name && f.target ≤ index then
      let f := if f.target = index then { f with reached := true } else { f with missed := true }
      ({ p with player := { p.player with fastForward := some f } }, true)
    else (p, false)

/-- Starts the first command from the cursor on that runs. The bound is on how many it passes;
each one that is passed moves the cursor forward. -/
def beginWithin (env : Env) : Nat → Playback → Playback × Except JumpError Begin
  | 0, p => (p, .ok .idle)
  | n + 1, p =>
    match p.cursor.index, p.player.document with
    | some index, some d =>
      match d.command? index with
      | none => (p.endOfScript .endOfScript, .ok .idle)
      | some c =>
        match p.checkForward d index with
        | (p, true) => (p, .ok .idle)
        | (p, false) =>
          let arrived := p.player.arrivedByBranch
          let p := { p with player := { p.player with arrivedByBranch := false } }
          match d.entry index arrived p.services with
          | .skip next => beginWithin env n (p.withCursor { p.cursor with index := some next })
          | .run =>
            match env.source.registry.get? c.name with
            | some h => p.begin env d index c h
            | none =>
              let p := p.reportFault ⟨d.name, index⟩ ("unknown command `" ++ c.name ++ "`")
              beginWithin env n (p.withCursor { p.cursor with index := some (index + 1) })
    | _, _ => (p, .ok .idle)

/-- Starts the next command. -/
def beginNext (env : Env) (p : Playback) : Playback × Except JumpError Begin :=
  beginWithin env (((p.player.document.map (·.size)).getD 0) + 1) p

/-- Steps the command in flight; tells whether it has completed. -/
def stepActive (env : Env) (p : Playback) (a : ActiveCommand) (delta : Nanoseconds) :
    Playback × Except JumpError Bool :=
  let idle := { p with player := { p.player with active := none } }
  match p.player.document with
  | none => (p, .ok false)
  | some d =>
    match d.command? a.index with
    | none => (idle, .ok true)
    | some c =>
      let spot : Spot := ⟨d.name, a.index⟩
      let ctx : Context :=
        { command := c, spot := spot, delta := delta, skipping := p.cursor.skipping,
          transient := false, cancelled := p.scopes.isCancelled p.player.scope }
      let finish (p : Playback) (completion : Completion) : Playback × Except JumpError Bool :=
        match p.complete env a.index completion a.eligible with
        | (p, .ok ()) => (p, .ok true)
        | (p, .error e) => (p, .error e)
      match a.task.step ctx p.services with
      | (.suspended task _, s) =>
        let p := p.withServices s
        ({ p with player := { p.player with active := some { a with task := task } } }, .ok false)
      | (.completed completion, s) => finish (idle.withServices s) completion
      | (.faulted f, s) =>
        finish ((idle.withServices s).reportFault spot f.message) (.ofFault c.role)

/-- Starts and steps up to so many commands; the first step takes the time that has passed. -/
def run (env : Env) : Nat → Nanoseconds → Playback → Playback × Except JumpError Unit
  | 0, _, p => (p, .ok ())
  | n + 1, delta, p =>
    if !p.player.isRunning || p.cursor.waiting then (p, .ok ())
    else
      match p.beginNext env with
      | (p, .error e) => (p, .error e)
      | (p, .ok .idle) => (p, .ok ())
      | (p, .ok .completed) => run env n delta p
      | (p, .ok .started) =>
        match p.player.active with
        | none => (p, .ok ())
        | some a =>
          match p.stepActive env a delta with
          | (p, .error e) => (p, .error e)
          | (p, .ok false) => (p, .ok ())
          | (p, .ok true) => run env n 0 p

/-- Drops the command in flight after the scope of playback was cancelled, and halts at it. -/
def interrupt (p : Playback) : Playback :=
  let p := p.cancelActive.renewScope
  { p with player := { p.player with halted := true } }.emit (.stopped .cancelled)

/-- Leaves an input wait when skipping, or when auto-play has waited for long enough; tells whether
playback goes on. -/
def leaveWait (env : Env) (p : Playback) (delta : Nanoseconds) : Playback × Bool :=
  if p.choicesPending then (p, false)
  else if p.cursor.skipping then (p.withCursor { p.cursor with waiting := false }, true)
  else if p.cursor.autoPlaying then
    let delay := (p.services.preferences.map (·.current.autoPlayDelay)).getD
      env.config.autoPlayDelay
    let elapsed := p.player.waitElapsed + delta
    if delay * Nanoseconds.perMillisecond ≤ elapsed then
      let cursor := { p.cursor with waiting := false }
      ({ p with player := { p.player with cursor := cursor, waitElapsed := 0 } }, true)
    else ({ p with player := { p.player with waitElapsed := elapsed } }, false)
  else (p, false)

/-- Whether a command in flight lies past the end of the script. A jump from outside the script may
have changed it under the command. -/
def isStray (p : Playback) (a : ActiveCommand) : Bool :=
  match p.player.document with
  | some d => (d.command? a.index).isNone
  | none => false

/-- Steps the command in flight, if there is one, and goes on from there. -/
def advance (env : Env) (p : Playback) (delta : Nanoseconds) : Playback × Except JumpError Unit :=
  match p.player.active with
  | none => run env env.config.maxCommands delta p
  | some a =>
    if p.isStray a then
      run env env.config.maxCommands delta { p with player := { p.player with active := none } }
    else match p.stepActive env a delta with
    | (p, .error e) => (p, .error e)
    | (p, .ok false) => (p, .ok ())
    | (p, .ok true) => run env env.config.maxCommands 0 p

/-- Advances main playback by a time. -/
def tick (env : Env) (p : Playback) (delta : Nanoseconds) : Playback × Except JumpError Unit :=
  if !p.player.isRunning then (p, .ok ())
  else if p.scopes.isCancelled p.player.scope then (p.interrupt, .ok ())
  else if p.cursor.waiting then
    match p.leaveWait env delta with
    | (p, false) => (p, .ok ())
    | (p, true) => p.advance env delta
  else p.advance env delta

/-- Whether a command before the target may not be played past. -/
def isBlocked (registry : Registry) (d : Document) (start target : Nat) : Bool :=
  ((d.commands.toList.drop start).take (target - start)).any fun c =>
    match registry.get? c.name with
    | some h => h.blocks c
    | none => false

/-- Ticks until the run forward ends, at most so many times. -/
def forward (env : Env) (startedAt : Nat) : Nat → Playback → Playback × Except JumpError Bool
  | left, p =>
    match p.player.fastForward with
    | none => (p, .ok false)
    | some f =>
      if f.reached then (p, .ok true)
      else if f.missed || !p.player.isRunning || p.cursor.script ≠ f.script || p.choicesPending ||
          env.config.fastForwardLimit < p.cursor.played - startedAt then (p, .ok false)
      else
        match left with
        | 0 => (p, .ok false)
        | left + 1 =>
          match p.tick env 0 with
          | (p, .ok ()) => forward env startedAt left p
          | (p, .error e) => (p, .error e)

/-- Plays forward, skipping, until the cursor comes to an index of its script; tells whether it
did. It gives up when playback stops, waits for a choice, leaves the script, passes the target or
plays for too long. -/
def fastForward (env : Env) (p : Playback) (target : Nat) : Playback × Except JumpError Bool :=
  match p.player.document, p.cursor.index with
  | some d, some start =>
    if target ≤ start || d.size < target || !p.player.isRunning then (p, .ok (target = start))
    else if isBlocked env.source.registry d start target || p.choicesPending then (p, .ok false)
    else
      let skipping := p.cursor.skipping
      let begun := { p with player := { p.player with
        cursor := { p.cursor with skipping := true }
        fastForward := some ⟨d.name, target, false, false⟩ } }
      match forward env p.cursor.played (env.config.fastForwardLimit + 1) begun with
      | (p, result) =>
        let cursor := { p.cursor with skipping := skipping }
        ({ p with player := { p.player with cursor := cursor, fastForward := none } }, result)
  | _, _ => (p, .ok false)

end Playback

end Playhead
