import Playhead.Command.Builtin
import Playhead.Command.Fault
import Playhead.Command.Handler
import Playhead.Command.Task
import Playhead.Command.Wait
import Playhead.Config.Basic
import Playhead.Config.Fields
import Playhead.Config.File
import Playhead.Decimal.Binary
import Playhead.Decimal.Layout
import Playhead.Decimal.Reader
import Playhead.Decimal.Shortest
import Playhead.Digest.XXH3
import Playhead.Engine.Basic
import Playhead.Engine.Choice
import Playhead.Engine.Play
import Playhead.Engine.Rewind
import Playhead.Engine.Rollback
import Playhead.Engine.Saving
import Playhead.Expr.Assignment
import Playhead.Expr.Basic
import Playhead.Expr.Eval
import Playhead.Expr.Parser
import Playhead.Expr.Token
import Playhead.Expr.Value
import Playhead.Extension.Commands
import Playhead.Extension.Counter
import Playhead.Files.Path
import Playhead.Files.Tree
import Playhead.Headless.Arguments
import Playhead.Headless.Command
import Playhead.Headless.Drive
import Playhead.Headless.Report
import Playhead.Headless.Validate
import Playhead.Inspect.Code
import Playhead.Inspect.Playback
import Playhead.Inspect.Script
import Playhead.Json.Basic
import Playhead.Json.Decode
import Playhead.Json.Pointer
import Playhead.Json.Printer
import Playhead.Json.Reader
import Playhead.Library.Resource
import Playhead.Library.Scripts
import Playhead.Main
import Playhead.NameMap
import Playhead.Playback.Branching
import Playhead.Playback.Cancellation
import Playhead.Playback.Event
import Playhead.Playback.Jump
import Playhead.Playback.Player
import Playhead.Playback.Spot
import Playhead.Playback.Tick
import Playhead.Playback.Transient
import Playhead.Proofs.Bearings.Basic
import Playhead.Proofs.Bearings.Engine
import Playhead.Proofs.Bearings.Placed
import Playhead.Proofs.Bearings.Tick
import Playhead.Proofs.Engine.Acts
import Playhead.Proofs.Engine.Ahead
import Playhead.Proofs.Engine.AllOrNothing
import Playhead.Proofs.Engine.Arising
import Playhead.Proofs.Engine.Bounded
import Playhead.Proofs.Engine.Calm
import Playhead.Proofs.Engine.Choosing
import Playhead.Proofs.Engine.Chronicle
import Playhead.Proofs.Engine.Conditionals
import Playhead.Proofs.Engine.Derail
import Playhead.Proofs.Engine.Drive
import Playhead.Proofs.Engine.FailedLoad
import Playhead.Proofs.Engine.InFlight
import Playhead.Proofs.Engine.Isolated
import Playhead.Proofs.Engine.Launched
import Playhead.Proofs.Engine.Loading
import Playhead.Proofs.Engine.Logged
import Playhead.Proofs.Engine.Missed
import Playhead.Proofs.Engine.Operation
import Playhead.Proofs.Engine.QuickSave
import Playhead.Proofs.Engine.Recall
import Playhead.Proofs.Engine.Recorded
import Playhead.Proofs.Engine.Replay
import Playhead.Proofs.Engine.Restore
import Playhead.Proofs.Engine.Resume
import Playhead.Proofs.Engine.Returns
import Playhead.Proofs.Engine.Outcomes
import Playhead.Proofs.Engine.Rounds
import Playhead.Proofs.Engine.Selection
import Playhead.Proofs.Engine.Skips
import Playhead.Proofs.Engine.Sound
import Playhead.Proofs.Engine.Still
import Playhead.Proofs.Engine.Targets
import Playhead.Proofs.Engine.ToLine
import Playhead.Proofs.Except
import Playhead.Proofs.Expr.Grammar
import Playhead.Proofs.Expr.Phrases
import Playhead.Proofs.Expr.Scanning
import Playhead.Proofs.Expr.Spelling
import Playhead.Proofs.Expr.Statements
import Playhead.Proofs.Expr.Targets
import Playhead.Proofs.Files.Answers
import Playhead.Proofs.Files.Held
import Playhead.Proofs.Files.Inside
import Playhead.Proofs.Files.Path
import Playhead.Proofs.Files.Tree
import Playhead.Proofs.Headless.Reports
import Playhead.Proofs.Json.Reading
import Playhead.Proofs.Modes.Basic
import Playhead.Proofs.Modes.Engine
import Playhead.Proofs.Motion.Bare
import Playhead.Proofs.Motion.Calls
import Playhead.Proofs.Motion.Deeds
import Playhead.Proofs.Motion.Forward
import Playhead.Proofs.Motion.Moves
import Playhead.Proofs.Motion.Pace
import Playhead.Proofs.Motion.Recorded
import Playhead.Proofs.Motion.Step
import Playhead.Proofs.Script.Inline
import Playhead.Proofs.Script.Labels
import Playhead.Proofs.Script.Lines
import Playhead.Proofs.Script.Linked
import Playhead.Proofs.Script.Nesting
import Playhead.Proofs.Script.Outline
import Playhead.Proofs.Script.Quotes
import Playhead.Proofs.Script.Registered
import Playhead.Proofs.Script.Roles
import Playhead.Proofs.Script.Staged
import Playhead.Proofs.Script.Words
import Playhead.Proofs.Services.Assigning
import Playhead.Proofs.Services.Commits
import Playhead.Proofs.Services.Engine
import Playhead.Proofs.Services.Shape
import Playhead.Proofs.Services.Task
import Playhead.Proofs.Services.Tick
import Playhead.Proofs.Services.Waiting
import Playhead.Proofs.Standing.Basic
import Playhead.Proofs.Standing.Builtin
import Playhead.Proofs.Standing.Complete
import Playhead.Proofs.Standing.Counting
import Playhead.Proofs.Standing.Enclosed
import Playhead.Proofs.Standing.Offers
import Playhead.Proofs.Standing.Path
import Playhead.Proofs.Standing.Progress
import Playhead.Proofs.Standing.Prompt
import Playhead.Proofs.Standing.Shelf
import Playhead.Proofs.Standing.Sound
import Playhead.Proofs.Standing.Steady
import Playhead.Proofs.Standing.Story
import Playhead.Proofs.Standing.Tick
import Playhead.Proofs.Standing.Tracking
import Playhead.Proofs.Standing.Walk
import Playhead.Proofs.State.Applied
import Playhead.Proofs.State.Atomic
import Playhead.Proofs.State.Checksum
import Playhead.Proofs.State.History
import Playhead.Proofs.State.Records
import Playhead.Proofs.State.Restore
import Playhead.Proofs.State.Saves
import Playhead.Proofs.State.TakenBack
import Playhead.Proofs.State.Takeover
import Playhead.Proofs.Text.Blank
import Playhead.Proofs.Wings.Alike
import Playhead.Proofs.Wings.Aside
import Playhead.Proofs.Wings.Calls
import Playhead.Proofs.Wings.Engine
import Playhead.Proofs.Wings.History
import Playhead.Proofs.Wings.Recalled
import Playhead.Proofs.Wings.Run
import Playhead.Proofs.Wings.Runner
import Playhead.Proofs.Wings.Standing
import Playhead.Proofs.Wings.Strides
import Playhead.Proofs.Wings.Tether
import Playhead.Save.Slots
import Playhead.Script.Block
import Playhead.Script.Command
import Playhead.Script.Document
import Playhead.Script.Param
import Playhead.Script.Reader
import Playhead.Script.Token
import Playhead.Service.CallStack
import Playhead.Service.Choices
import Playhead.Service.Played
import Playhead.Service.Preferences
import Playhead.Service.Scope
import Playhead.Service.Set
import Playhead.Service.TextLog
import Playhead.Service.Variables
import Playhead.State.Manager
import Playhead.State.Map
import Playhead.State.Snapshot
import Playhead.State.Stack
import Playhead.Text.Alphabetic
import Playhead.Text.Basic
import Playhead.Text.Numeric
import Playhead.Text.Printable
import Playhead.Toml.Quote
import Playhead.Toml.Reader
import Playhead.Toml.Scalar
import Playhead.Toml.Table
