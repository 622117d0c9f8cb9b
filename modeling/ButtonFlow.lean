import ButtonFlow.Button.Click
import ButtonFlow.Button.Session
import ButtonFlow.Button.View
import ButtonFlow.Cli.Invocation
import ButtonFlow.Cli.Parameter
import ButtonFlow.Cli.Preview
import ButtonFlow.Cli.Program
import ButtonFlow.Cli.Screen
import ButtonFlow.Cli.Words
import ButtonFlow.Decimal.Binary
import ButtonFlow.Decimal.Fixed
import ButtonFlow.Decimal.Shortest
import ButtonFlow.Decimal.Whole
import ButtonFlow.Dict
import ButtonFlow.Json.Failure
import ButtonFlow.Json.Format
import ButtonFlow.Json.Number
import ButtonFlow.Json.Numeral
import ButtonFlow.Json.Printer
import ButtonFlow.Json.Quoted
import ButtonFlow.Json.Record
import ButtonFlow.Json.Token
import ButtonFlow.Json.Tree
import ButtonFlow.Json.Value
import ButtonFlow.Json.Variant
import ButtonFlow.Main
import ButtonFlow.Proofs.Button.AfterCancel
import ButtonFlow.Proofs.Button.Calm
import ButtonFlow.Proofs.Button.Career
import ButtonFlow.Proofs.Button.Chronicle
import ButtonFlow.Proofs.Button.Clicked
import ButtonFlow.Proofs.Button.Disabled
import ButtonFlow.Proofs.Button.Documents
import ButtonFlow.Proofs.Button.Ended
import ButtonFlow.Proofs.Button.InTurn
import ButtonFlow.Proofs.Button.Life
import ButtonFlow.Proofs.Button.Look
import ButtonFlow.Proofs.Button.Results
import ButtonFlow.Proofs.Button.Served
import ButtonFlow.Proofs.Button.ServedClicks
import ButtonFlow.Proofs.Cli.Answers
import ButtonFlow.Proofs.Cli.Clicks
import ButtonFlow.Proofs.Cli.EditRuns
import ButtonFlow.Proofs.Cli.Given
import ButtonFlow.Proofs.Cli.NewAction
import ButtonFlow.Proofs.Cli.Positions
import ButtonFlow.Proofs.Cli.Reader
import ButtonFlow.Proofs.Cli.Spared
import ButtonFlow.Proofs.Cli.Starts
import ButtonFlow.Proofs.Dict
import ButtonFlow.Proofs.Except
import ButtonFlow.Proofs.Json.Arranged
import ButtonFlow.Proofs.Json.Assembly
import ButtonFlow.Proofs.Json.Closing
import ButtonFlow.Proofs.Json.Exact
import ButtonFlow.Proofs.Json.Given
import ButtonFlow.Proofs.Json.Grammar
import ButtonFlow.Proofs.Json.Layout
import ButtonFlow.Proofs.Json.ReadBack
import ButtonFlow.Proofs.Json.Spelling
import ButtonFlow.Proofs.Json.Variant
import ButtonFlow.Proofs.Json.Whole
import ButtonFlow.Proofs.Run.Account
import ButtonFlow.Proofs.Run.Calm
import ButtonFlow.Proofs.Run.Cancelled
import ButtonFlow.Proofs.Run.Course
import ButtonFlow.Proofs.Run.CutShort
import ButtonFlow.Proofs.Run.Fragment
import ButtonFlow.Proofs.Run.Grammar
import ButtonFlow.Proofs.Run.Pacing
import ButtonFlow.Proofs.Run.Quiet
import ButtonFlow.Proofs.Run.Replay
import ButtonFlow.Proofs.Run.Report
import ButtonFlow.Proofs.Run.Sequence
import ButtonFlow.Proofs.Run.Settings
import ButtonFlow.Proofs.Run.Storage
import ButtonFlow.Proofs.Run.Styles
import ButtonFlow.Proofs.Run.Uncut
import ButtonFlow.Proofs.Run.Writes
import ButtonFlow.Proofs.Store.Agreement
import ButtonFlow.Proofs.Store.File
import ButtonFlow.Proofs.Store.FileTree
import ButtonFlow.Proofs.Store.Saved
import ButtonFlow.Proofs.Store.Torn
import ButtonFlow.Proofs.Store.Unwritten
import ButtonFlow.Proofs.Text.ByteOrder
import ButtonFlow.Proofs.Workflow.Changes
import ButtonFlow.Proofs.Workflow.Edit
import ButtonFlow.Proofs.Workflow.Format
import ButtonFlow.Proofs.Workflow.Layouts
import ButtonFlow.Proofs.Workflow.Merge
import ButtonFlow.Proofs.Workflow.Move
import ButtonFlow.Proofs.Workflow.Revision
import ButtonFlow.Proofs.World.Clock
import ButtonFlow.Proofs.World.Deeds
import ButtonFlow.Proofs.World.Waiting
import ButtonFlow.Proofs.World.Quiet
import ButtonFlow.Proofs.World.Scene
import ButtonFlow.Proofs.World.Trail
import ButtonFlow.Proofs.World.Visitor
import ButtonFlow.Run.Event
import ButtonFlow.Run.Execute
import ButtonFlow.Run.Fragment
import ButtonFlow.Run.Presentation
import ButtonFlow.Run.Result
import ButtonFlow.Run.Step
import ButtonFlow.Store.Basic
import ButtonFlow.Store.FileTree
import ButtonFlow.Store.IoError
import ButtonFlow.Store.Route
import ButtonFlow.Store.Slot
import ButtonFlow.Text.CharacterRanges
import ButtonFlow.Text.Debug
import ButtonFlow.Text.Terminal
import ButtonFlow.Workflow.Action
import ButtonFlow.Workflow.Basic
import ButtonFlow.Workflow.Config
import ButtonFlow.Workflow.Edit
import ButtonFlow.Workflow.Kind
import ButtonFlow.World.Basic
import ButtonFlow.World.Host
import ButtonFlow.World.Visitor
import ButtonFlow.World.Waiting
