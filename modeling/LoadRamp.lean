import LoadRamp.BookAccess
import LoadRamp.Check
import LoadRamp.CommandLine
import LoadRamp.Config
import LoadRamp.Config.Decode
import LoadRamp.Config.Error
import LoadRamp.Config.Resolve
import LoadRamp.Definition
import LoadRamp.Digest.Sha3
import LoadRamp.Duration
import LoadRamp.Duration.Phrase
import LoadRamp.Duration.Text
import LoadRamp.FileError
import LoadRamp.Happening
import LoadRamp.Http.Host
import LoadRamp.Http.Message
import LoadRamp.Http.Method
import LoadRamp.Http.Punycode
import LoadRamp.Http.Url
import LoadRamp.Iteration
import LoadRamp.Json.Input
import LoadRamp.Json.Reader
import LoadRamp.Json.Writer
import LoadRamp.Ledger
import LoadRamp.Log
import LoadRamp.Main
import LoadRamp.Number.Binary64
import LoadRamp.Number.Decimal
import LoadRamp.Number.Rounding
import LoadRamp.Number.Shortest
import LoadRamp.Ordered
import LoadRamp.Problem
import LoadRamp.Program
import LoadRamp.Proofs.Accounts
import LoadRamp.Proofs.Accuracy
import LoadRamp.Proofs.Agreement
import LoadRamp.Proofs.Averages
import LoadRamp.Proofs.Canonical
import LoadRamp.Proofs.Chain
import LoadRamp.Proofs.Checks
import LoadRamp.Proofs.Chronicle
import LoadRamp.Proofs.Completion
import LoadRamp.Proofs.Course
import LoadRamp.Proofs.Decoding
import LoadRamp.Proofs.Deed
import LoadRamp.Proofs.Drained
import LoadRamp.Proofs.Draining
import LoadRamp.Proofs.Entries
import LoadRamp.Proofs.Excerpts
import LoadRamp.Proofs.Fingerprint
import LoadRamp.Proofs.Grace
import LoadRamp.Proofs.Handles
import LoadRamp.Proofs.Headers
import LoadRamp.Proofs.Heeding
import LoadRamp.Proofs.History
import LoadRamp.Proofs.InTime
import LoadRamp.Proofs.Instants
import LoadRamp.Proofs.Iterations
import LoadRamp.Proofs.Journal
import LoadRamp.Proofs.Leaving
import LoadRamp.Proofs.Loop
import LoadRamp.Proofs.Move
import LoadRamp.Proofs.Octets
import LoadRamp.Proofs.Passage
import LoadRamp.Proofs.PlannedDuration
import LoadRamp.Proofs.Pool
import LoadRamp.Proofs.Printed
import LoadRamp.Proofs.Punctual
import LoadRamp.Proofs.Ramp
import LoadRamp.Proofs.ReadBack
import LoadRamp.Proofs.Refusals
import LoadRamp.Proofs.Requests
import LoadRamp.Proofs.Resolving
import LoadRamp.Proofs.Results
import LoadRamp.Proofs.Room
import LoadRamp.Proofs.Roster
import LoadRamp.Proofs.Rounding
import LoadRamp.Proofs.Signals
import LoadRamp.Proofs.Stages
import LoadRamp.Proofs.Stopping
import LoadRamp.Proofs.Table
import LoadRamp.Proofs.Templates
import LoadRamp.Proofs.Ticks
import LoadRamp.Proofs.Timings
import LoadRamp.Proofs.Totals
import LoadRamp.Proofs.Unambiguous
import LoadRamp.Reference
import LoadRamp.Report
import LoadRamp.Report.Print
import LoadRamp.Report.Table
import LoadRamp.Run
import LoadRamp.Run.Play
import LoadRamp.Scenario
import LoadRamp.Scene
import LoadRamp.Schedule
import LoadRamp.Settings
import LoadRamp.Signal
import LoadRamp.Solo
import LoadRamp.StopPlan
import LoadRamp.Summary
import LoadRamp.Summary.Format
import LoadRamp.Summary.Journal
import LoadRamp.Text.Ascii
import LoadRamp.Text.Blank
import LoadRamp.Text.CellTables
import LoadRamp.Text.Combining
import LoadRamp.Text.Lines
import LoadRamp.Text.Offsets
import LoadRamp.Text.Quoted
import LoadRamp.Text.Ranges
import LoadRamp.Text.Unprintable
import LoadRamp.Text.Utf8
import LoadRamp.Text.Width
import LoadRamp.Toml.Document
import LoadRamp.Toml.Lexeme
import LoadRamp.Toml.Scalar
import LoadRamp.Toml.Value
import LoadRamp.Transport
import LoadRamp.User
