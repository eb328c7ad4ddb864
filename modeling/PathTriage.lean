import PathTriage.Batch
import PathTriage.Command.Choice
import PathTriage.Command.Grammar
import PathTriage.Command.Request
import PathTriage.Command.Run
import PathTriage.Condition
import PathTriage.Decimal.Binary64
import PathTriage.Decimal.Fixed
import PathTriage.Decimal.Power
import PathTriage.Decimal.Rounding
import PathTriage.Decimal.Scientific
import PathTriage.Decimal.Shortest
import PathTriage.Discovery
import PathTriage.Document.Field
import PathTriage.Document.Node
import PathTriage.Document.Record
import PathTriage.Document.Result
import PathTriage.Failure
import PathTriage.Files
import PathTriage.Files.Tree
import PathTriage.Graph.Basic
import PathTriage.Graph.Bound
import PathTriage.Graph.Traversal
import PathTriage.Json.Arithmetic
import PathTriage.Json.Literal
import PathTriage.Json.Reader
import PathTriage.Json.Token
import PathTriage.Json.Value
import PathTriage.Json.Writer
import PathTriage.Lexicon
import PathTriage.Main
import PathTriage.Model.Analysis
import PathTriage.Model.CallPath
import PathTriage.Model.Change
import PathTriage.Model.Commit
import PathTriage.Model.Layer
import PathTriage.Model.Level
import PathTriage.Model.Link
import PathTriage.Model.Method
import PathTriage.Model.Named
import PathTriage.Number
import PathTriage.Order
import PathTriage.Payload.Analysis
import PathTriage.Payload.Change
import PathTriage.Payload.Checked
import PathTriage.Payload.Commit
import PathTriage.Payload.Field
import PathTriage.Payload.Numeral
import PathTriage.Ranking
import PathTriage.Reading
import PathTriage.Report
import PathTriage.Scalar
import PathTriage.Score.Intent
import PathTriage.Score.Risk
import PathTriage.Settings.Basic
import PathTriage.Settings.Load
import PathTriage.Settings.Threshold
import PathTriage.Signal
import PathTriage.Store.Basic
import PathTriage.Store.Bundle
import PathTriage.Store.Operation
import PathTriage.Store.Query
import PathTriage.Store.Update
import PathTriage.Telemetry.Event
import PathTriage.Telemetry.LogRecord
import PathTriage.Telemetry.Metrics
import PathTriage.Telemetry.Severity
import PathTriage.Text.Blank
import PathTriage.Text.Camel
import PathTriage.Text.Casing
import PathTriage.Text.Casing.Context
import PathTriage.Text.Casing.Mapping
import PathTriage.Text.Digit
import PathTriage.Text.Lines
import PathTriage.Text.Numeral
import PathTriage.Text.Occurrence
import PathTriage.Text.Quoted
import PathTriage.Text.Template.Directive
import PathTriage.Text.Template.Fill
import PathTriage.Text.Visible
import PathTriage.Verdict
import PathTriage.Proofs.Store.Content
import PathTriage.Proofs.Store.Integrity
import PathTriage.Proofs.Store.Degrees
import PathTriage.Proofs.Order
import PathTriage.Proofs.Graph.Closed
import PathTriage.Proofs.Graph.History
import PathTriage.Proofs.Store.Lookup
import PathTriage.Proofs.Store.Changes
import PathTriage.Proofs.Store.Files
import PathTriage.Proofs.Store.Project
import PathTriage.Proofs.Store.Rebuild
import PathTriage.Proofs.Store.Effect
import PathTriage.Proofs.Store.Reorder
import PathTriage.Proofs.Number
import PathTriage.Proofs.Graph.Routes
import PathTriage.Proofs.Discovery
import PathTriage.Proofs.Score.Formula
import PathTriage.Proofs.Score.Weights
import PathTriage.Proofs.Report
import PathTriage.Proofs.Batch.Partition
import PathTriage.Proofs.Batch.Change
import PathTriage.Proofs.MachineOrder
import PathTriage.Proofs.Batch.Order
import PathTriage.Proofs.Payload
import PathTriage.Proofs.Score.Scored
import PathTriage.Proofs.Store.Findings
import PathTriage.Proofs.Store.Figures
import PathTriage.Proofs.Command.Inputs
import PathTriage.Proofs.Command.Run
import PathTriage.Proofs.Score.Exact
import PathTriage.Proofs.Score.Bounds
import PathTriage.Proofs.Score.Growth
import PathTriage.Proofs.Verdict
import PathTriage.Proofs.Score.Tests
import PathTriage.Proofs.Score.Changes
import PathTriage.Proofs.Store.Loading
import PathTriage.Proofs.Store.Reanalysis
import PathTriage.Proofs.Payload.Analysis
import PathTriage.Proofs.Payload.Bundle
import PathTriage.Proofs.Store.Removal
import PathTriage.Proofs.Store.Succession
import PathTriage.Proofs.Store.Unaffected
import PathTriage.Proofs.Store.Renaming
import PathTriage.Proofs.Graph.Ball
import PathTriage.Proofs.Store.Accounting
import PathTriage.Proofs.Graph.Propagation
import PathTriage.Proofs.Graph.Precedence
import PathTriage.Proofs.Discovery.Limit
import PathTriage.Proofs.Discovery.Evidence
import PathTriage.Proofs.Discovery.Layers
import PathTriage.Proofs.NumberOrder
import PathTriage.Proofs.Verdict.Given
import PathTriage.Proofs.Leading
import PathTriage.Proofs.Report.Tables
import PathTriage.Proofs.Store.Statistics
import PathTriage.Proofs.Store.Refresh
import PathTriage.Proofs.Json.Fields
import PathTriage.Proofs.Settings.Layers
import PathTriage.Proofs.Text.Camel
import PathTriage.Proofs.Settings.Sources
import PathTriage.Proofs.Settings.Overriding
import PathTriage.Proofs.Settings.Document
import PathTriage.Proofs.Lexicon
import PathTriage.Proofs.Model.Method
