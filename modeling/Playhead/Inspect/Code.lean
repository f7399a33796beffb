import Playhead.Engine.Basic

/-!
Codes of errors: short names by which hosts tell them apart.
-/

namespace Playhead

def ExprError.code : ExprError → String
  | .malformed .. => "Expression.Syntax"
  | .unknownVariable .. => "Expression.UnknownVariable"
  | .unknownFunction .. => "Expression.UnknownFunction"
  | .mismatch .. => "Expression.TypeMismatch"
  | .divisionByZero => "Expression.DivisionByZero"

def ParamError.code : ParamError → String
  | .missing .. => "Param.Missing"
  | .malformed .. => "Param.Malformed"
  | .wrongKind .. => "Param.WrongKind"

def Fault.code : Fault → String
  | .param e => e.code
  | .expr e => e.code
  | .missingService _ => "MissingService"
  | _ => "Failed"

def ScriptError.code : ScriptError → String
  | .waitTooLong => "Parse.WaitTooLong"
  | .unmatchedBranch .. => "Parse.UnmatchedBranch"
  | .branchAfterElse .. => "Parse.BranchAfterElse"
  | .unclosedIf .. => "Parse.UnclosedIf"

def ServiceError.code : ServiceError → String
  | .record _ => "State.Record"
  | .duplicate _ => "State.DuplicateService"
  | .invalidId _ => "State.InvalidServiceId"

def StateError.code : StateError → String
  | .service e => e.code
  | .snapshot (.version ..) => "State.VersionMismatch"
  | .snapshot (.checksum ..) => "State.ChecksumMismatch"
  | .emptySlot .. => "State.SlotEmpty"

def ResourceError.code : ResourceError → String
  | .notFound _ => "Resource.NotFound"
  | .invalidPath _ => "Resource.InvalidPath"
  | .notText _ => "Resource.NotText"
  | .unreadable .. => "Resource.Io"

def LibraryError.code : LibraryError → String
  | .resource .. => "Library.Resource"
  | .script e => e.code

def SaveError.code : SaveError → String
  | .invalidSlot _ => "Persistence.InvalidSlot"
  | .inaccessible _ => "Persistence.Io"
  | .malformed _ => "Persistence.Format"
  | .foreign .. => "Persistence.Format"
  | .version .. => "Persistence.Version"

def ConfigError.code : ConfigError → String
  | .unreadable _ => "Config.Io"
  | .malformed => "Config.Parse"
  | .noCommands => "Config.Invalid"
  | .noQuickSlot => "Config.Invalid"

def JumpError.code : JumpError → String
  | .library e => e.code
  | .unknownLabel .. => "UnknownLabel"
  | .invalidSpot _ => "InvalidSpot"
  | .notPlaying => "NotPlaying"

def EngineError.code : EngineError → String
  | .jump e => e.code
  | .noStartScript => "NoStartScript"
  | .noSuchChoice _ => "NoSuchChoice"
  | .state e => e.code
  | .save e => e.code
  | .config e => e.code
  | .registry _ => "Registry.Duplicate"

end Playhead
