import Playhead.Expr.Basic
import Playhead.Script.Param

/-!
Why a command can fail. A command that fails completes as if it had done nothing.
-/

namespace Playhead

inductive Fault where
  | param (e : ParamError)
  | expr (e : ExprError)
  | missingService (id : String)
  | invalidWait (text : String)
  | invalidTarget (text : String)
  | gosubInTransient
  | nestingTooDeep
  | returnWithoutGosub

def Fault.message : Fault → String
  | .param e => e.message
  | .expr e => e.message
  | .missingService id => "service `" ++ id ++ "` is not registered"
  | .invalidWait text => "invalid wait `" ++ text ++ "`"
  | .invalidTarget text => "invalid jump target `" ++ text ++ "`"
  | .gosubInTransient => "gosub is not available in transient scripts"
  | .nestingTooDeep => "gosub nesting too deep"
  | .returnWithoutGosub => "return without gosub"

end Playhead
