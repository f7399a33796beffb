import Playhead.Command.Builtin
import Playhead.Decimal.Binary
import Playhead.Extension.Counter

/-!
Commands of a host: `show` names a resource, `bump` adds to the counter after some ticks, and
`probe` logs the parameters it was given.
-/

namespace Playhead.Extension

open Builtin (optional read textOf)

def showResource : Handler :=
  { Handler.plain "show" [⟨"path", .text, true, true⟩] fun _ => .ok .endBlock
    with resources := textOf "path" }

/-- A bump under way: the ticks that are left and what is added after them. -/
def bumpState (ticks amount : Int) : Json :=
  .list [.int ticks, .int amount]

def stepBump (state : Json) (_ctx : Context) (s : ServiceSet) : Progress Json × ServiceSet :=
  match state with
  | .list [.int ticks, .int amount] =>
    if 0 < ticks then (.suspended (bumpState (ticks - 1) amount) .yield, s)
    else match Counter.get? s with
      | none => (.faulted (.missingService "counter"), s)
      | some n => (.completed {}, Counter.set s (Counter.clamp (n + amount)))
  | _ => (.completed {}, s)

/-- Counts cancelled bumps in a global variable. -/
def cancelBump (_state : Json) (s : ServiceSet) : ServiceSet :=
  let count (v : VariableStore) : VariableStore :=
    match v.get? "g_cancelled" with
    | some (.number x) => v.set "g_cancelled" (.number (x + 1.0))
    | _ => v.set "g_cancelled" (.number 1.0)
  { s with variableStore := s.variableStore.map count }

def bump : Handler :=
  .plain "bump" [⟨"by", .number, false, true⟩, optional "ticks" .number] fun c => do
    let amount ← read (c.number "by")
    let ticks ← read (c.number "ticks")
    let amount := Counter.clamp (Decimal.truncate (amount.getD 1.0))
    let ticks := max 0 (min 4294967295 (Decimal.truncate (ticks.getD 0.0)))
    .ok (.host ⟨bumpState ticks amount, stepBump, cancelBump⟩)

/-- The parameters of a probe as they are logged. -/
def probeText (c : Command) : Except Fault String := do
  let items ← read (c.textList "items")
  let num ← read (c.number "num")
  let flag ← read (c.flag "flag")
  let text ← read (c.text "text")
  let expr ← read (c.expression "expr")
  .ok <| Json.compact <| .list [
    .ofOption (fun l => .text ("|".intercalate l)) items, .ofOption .ofFloat num,
    .ofOption .bool flag, .ofOption .text text, .ofOption .text expr]

def stepProbe (_state : Json) (ctx : Context) (s : ServiceSet) : Progress Json × ServiceSet :=
  match probeText ctx.command with
  | .error f => (.faulted f, s)
  | .ok text =>
    match s.textLog with
    | none => (.faulted (.missingService (s.idOf .textLog)), s)
    | some log => (.completed {}, { s with textLog := some (log.push ⟨some "probe", text⟩) })

def probe : Handler :=
  { Handler.plain "probe"
      [⟨"items", .textList, false, true⟩, optional "nums" .numberList, optional "num" .number,
       optional "flag" .bool, optional "text" .text, optional "expr" .expression]
      fun c => do
        let _ ← read (c.number "num")
        .ok (.host ⟨.null, stepProbe, fun _ s => s⟩)
    with
      aliases := ["Trace"]
      eligible := false
      blocks := fun c => c.flag "flag" matches .ok (some true) }

def handlers : List Handler :=
  [showResource, bump, probe]

end Playhead.Extension
