import Playhead.Command.Handler

/-!
The built-in commands.
-/

namespace Playhead.Builtin

def required (name : String) (kind : ParamKind) : ParamSpec :=
  ⟨name, kind, true, true⟩

def optional (name : String) (kind : ParamKind) : ParamSpec :=
  ⟨name, kind, false, false⟩

/-- Reads a parameter for a start that faults with it. -/
def read {α : Type} (e : Except ParamError α) : Except Fault α :=
  e.mapError .param

/-- The text of a parameter that need not be readable. -/
def textOf (name : String) (c : Command) : List String :=
  match c.text name with
  | .ok (some s) => [s]
  | _ => []

/-- The warning about an expression parameter that `check` refuses. -/
def warnExpression {α : Type} (name : String) (check : String → Except ExprError α)
    (c : Command) : List String :=
  match c.expression name with
  | .ok (some source) =>
    match check source with
    | .error e => [e.message]
    | .ok _ => []
  | _ => []

def print : Handler :=
  .plain "print" [required "text" .text, optional "author" .text, optional "wait" .bool]
    fun c => do
      let text ← read (c.requireText "text")
      let author ← read (c.text "author")
      let wait ← read (c.flag "wait")
      .ok (.print ⟨author, text⟩ (wait.getD false))

def diagnoseWait (c : Command) : Except WaitError (List String) :=
  match c.text "time" with
  | .ok (some text) =>
    match Wait.parse text with
    | .ok _ => .ok []
    | .error .invalid =>
      .ok ["invalid wait `" ++ text ++ "`; expected `i`, seconds or `i<seconds>`"]
    | .error .tooLong => .error .tooLong
  | _ => .ok []

def wait : Handler :=
  { Handler.plain "wait" [required "time" .text] fun c => do
      let text ← read (c.requireText "time")
      match Wait.parse text with
      | .ok w => .ok (.wait w)
      | .error _ => .error (.invalidWait text)
    with diagnose := diagnoseWait }

def beginJump (returning : Bool) (c : Command) : Except Fault Task := do
  let text ← read (c.requireText "target")
  match JumpTarget.parse? text with
  | some target => .ok (.jump target returning)
  | none => .error (.invalidTarget text)

def goto : Handler :=
  { Handler.plain "goto" [required "target" .text] (beginJump false)
    with aliases := ["jump"], targets := textOf "target" }

def gosub : Handler :=
  { Handler.plain "gosub" [required "target" .text] (beginJump true)
    with targets := textOf "target" }

def returnToCaller : Handler :=
  .plain "return" [] fun _ => .ok .returnToCaller

def set : Handler :=
  { Handler.plain "set" [required "expression" .expression] fun c => do
      let source ← read (c.requireExpression "expression")
      (Assignment.parseAll source).map .assign |>.mapError .expr
    with diagnose := fun c => .ok (warnExpression "expression" Assignment.parseAll c) }

/-- A command of a conditional block that decides by a condition. -/
def conditional (name : String) (role : BlockRole) : Handler :=
  { Handler.plain name [required "condition" .expression] fun _ => .ok .branch
    with
      role := role
      eligible := false
      diagnose := fun c => .ok (warnExpression "condition" Expr.parse c) }

def ifBlock : Handler :=
  conditional "if" .if

def elseifBranch : Handler :=
  conditional "elseif" .elseif

def elseBranch : Handler :=
  { Handler.plain "else" [] fun _ => .ok .takeBranch with role := .else, eligible := false }

def endBlock : Handler :=
  { Handler.plain "endif" [] fun _ => .ok .endBlock with role := .endif, eligible := false }

def stop : Handler :=
  { Handler.plain "stop" [] fun _ => .ok .stop with blocks := fun _ => true }

def choice : Handler :=
  { Handler.plain "choice"
      [required "text" .text, optional "goto" .text, optional "set" .expression,
       optional "do" .text]
      fun c => do
        let text ← read (c.requireText "text")
        let goto ← read (c.text "goto")
        let set ← read (c.expression "set")
        let script ← read (c.text "do")
        .ok (.addChoice ⟨text, goto, set, script⟩)
    with
      targets := textOf "goto"
      diagnose := fun c => .ok (warnExpression "set" Assignment.parseAll c) }

def lock : Handler :=
  .plain "lock" [⟨"rollback", .bool, false, true⟩] fun c => do
    let allowed ← read (c.flag "rollback")
    .ok (.lock (allowed.getD false))

def handlers : List Handler :=
  [print, wait, goto, gosub, returnToCaller, set, ifBlock, elseifBranch, elseBranch, endBlock,
   stop, choice, lock]

end Playhead.Builtin

/-- The registry of the built-in commands, whose names are distinct. -/
def Playhead.Registry.builtin : Playhead.Registry :=
  ⟨Playhead.Builtin.handlers⟩
