import PacedLoad.Binary64
import PacedLoad.Clock
import PacedLoad.Command.Folder
import PacedLoad.Command.Line
import PacedLoad.Command.Machine
import PacedLoad.Config
import PacedLoad.Decimal.Shortest
import PacedLoad.Decimal.Text
import PacedLoad.Delay
import PacedLoad.FileError
import PacedLoad.Handler.Outcome
import PacedLoad.Handler.Phase
import PacedLoad.Handler.Replay
import PacedLoad.Journal
import PacedLoad.Json.Number
import PacedLoad.Json.Record
import PacedLoad.Json.Text
import PacedLoad.Json.Token
import PacedLoad.Json.Tree
import PacedLoad.Json.Value
import PacedLoad.Keyed
import PacedLoad.Main
import PacedLoad.Operation.Basic
import PacedLoad.Operation.Json
import PacedLoad.Pool.Basic
import PacedLoad.Pool.Executor
import PacedLoad.Pool.Floor
import PacedLoad.Pool.Rehearsal
import PacedLoad.Proofs.Binary64
import PacedLoad.Proofs.Clock
import PacedLoad.Proofs.Entries
import PacedLoad.Proofs.Handler.Call
import PacedLoad.Proofs.Handler.Outcome
import PacedLoad.Proofs.Handler.Phase
import PacedLoad.Proofs.Handler.Release
import PacedLoad.Proofs.Handler.Waiting
import PacedLoad.Proofs.Json.Compact
import PacedLoad.Proofs.Json.Document
import PacedLoad.Proofs.Json.Record
import PacedLoad.Proofs.Json.Tokens
import PacedLoad.Proofs.Json.Value
import PacedLoad.Proofs.Keyed
import PacedLoad.Proofs.Operation.Json
import PacedLoad.Proofs.Pool.Executor
import PacedLoad.Proofs.Pool.Floor
import PacedLoad.Proofs.Pool.Log
import PacedLoad.Proofs.Pool.Outcomes
import PacedLoad.Proofs.Pool.Session
import PacedLoad.Proofs.Pool.Shutdown
import PacedLoad.Proofs.Pool.Slots
import PacedLoad.Proofs.Records.Calls
import PacedLoad.Proofs.Records.History
import PacedLoad.Proofs.Records.Refinement
import PacedLoad.Proofs.Records.Requests
import PacedLoad.Proofs.Reply
import PacedLoad.Proofs.Rows.Isolation
import PacedLoad.Proofs.Rows.ReadBack
import PacedLoad.Proofs.Run.Acceptance
import PacedLoad.Proofs.Run.Account
import PacedLoad.Proofs.Run.Accounting
import PacedLoad.Proofs.Run.Asking
import PacedLoad.Proofs.Run.Books
import PacedLoad.Proofs.Run.Bounds
import PacedLoad.Proofs.Run.Closing
import PacedLoad.Proofs.Run.Coherence
import PacedLoad.Proofs.Run.Collecting
import PacedLoad.Proofs.Run.Conservation
import PacedLoad.Proofs.Run.Correspondence
import PacedLoad.Proofs.Run.Counting
import PacedLoad.Proofs.Run.Dependency
import PacedLoad.Proofs.Run.Driver
import PacedLoad.Proofs.Run.Ending
import PacedLoad.Proofs.Run.FinalTime
import PacedLoad.Proofs.Run.Finish
import PacedLoad.Proofs.Run.Letters
import PacedLoad.Proofs.Run.Moves
import PacedLoad.Proofs.Run.Outline
import PacedLoad.Proofs.Run.Progress
import PacedLoad.Proofs.Run.Reports
import PacedLoad.Proofs.Run.Room
import PacedLoad.Proofs.Run.Simulation
import PacedLoad.Proofs.Run.Steady
import PacedLoad.Proofs.Run.Stream
import PacedLoad.Proofs.Run.Tallying
import PacedLoad.Proofs.Run.Tracking
import PacedLoad.Proofs.Run.Turns
import PacedLoad.Proofs.Run.Visits
import PacedLoad.Proofs.Service.Basic
import PacedLoad.Proofs.Service.Course
import PacedLoad.Proofs.Service.Drain
import PacedLoad.Proofs.Service.Queue
import PacedLoad.Proofs.Service.Traffic
import PacedLoad.Proofs.Stats.Course
import PacedLoad.Proofs.Stats.Judgement
import PacedLoad.Proofs.Stats.LogRows
import PacedLoad.Proofs.Stats.Rank
import PacedLoad.Proofs.Stats.Service
import PacedLoad.Proofs.Stats.Snapshot
import PacedLoad.Proofs.Stats.Summary
import PacedLoad.Proofs.Stats.Tally
import PacedLoad.Proofs.Text.Lines
import PacedLoad.Proofs.Text.Numeral
import PacedLoad.Proofs.Text.Utf8
import PacedLoad.Proofs.Time.Order
import PacedLoad.Proofs.Time.Saturation
import PacedLoad.Proofs.Watermark.Board
import PacedLoad.Proofs.Watermark.Bookkeeping
import PacedLoad.Proofs.Watermark.Books
import PacedLoad.Proofs.Watermark.Counting
import PacedLoad.Proofs.Watermark.Course
import PacedLoad.Proofs.Watermark.Foresight
import PacedLoad.Proofs.Watermark.History
import PacedLoad.Proofs.Watermark.Interleaving
import PacedLoad.Proofs.Watermark.Ledger
import PacedLoad.Proofs.Watermark.LowWatermark
import PacedLoad.Proofs.Watermark.Orphans
import PacedLoad.Proofs.Watermark.Registration
import PacedLoad.Proofs.Watermark.Registry
import PacedLoad.Proofs.Watermark.Regression
import PacedLoad.Proofs.Watermark.Service
import PacedLoad.Proofs.Watermark.State
import PacedLoad.Proofs.Watermark.Tracker
import PacedLoad.Proofs.Watermark.Turns
import PacedLoad.Proofs.Watermark.Writer
import PacedLoad.Records.Database
import PacedLoad.Records.Execute
import PacedLoad.Reply
import PacedLoad.Reply.Exchange
import PacedLoad.Rows.Basic
import PacedLoad.Rows.Operations
import PacedLoad.Rows.Samples
import PacedLoad.Run.Basic
import PacedLoad.Run.Error
import PacedLoad.Run.Records
import PacedLoad.Run.Schedule
import PacedLoad.Run.Visits
import PacedLoad.Service.Basic
import PacedLoad.Stats.Calls
import PacedLoad.Stats.Json
import PacedLoad.Stats.ResultsLog
import PacedLoad.Stats.Service
import PacedLoad.Stats.Summary
import PacedLoad.Stats.Workload
import PacedLoad.Text.Blank
import PacedLoad.Text.Fields
import PacedLoad.Text.Hidden
import PacedLoad.Text.Lines
import PacedLoad.Text.Numeral
import PacedLoad.Text.Quoted
import PacedLoad.Time.Basic
import PacedLoad.Time.Text
import PacedLoad.Watermark.Board
import PacedLoad.Watermark.Calls
import PacedLoad.Watermark.Service
import PacedLoad.Watermark.State
import PacedLoad.Watermark.Tracker
import PacedLoad.Watermark.Writer
