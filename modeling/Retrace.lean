import Retrace.Graph.Read
import Retrace.Main
import Retrace.Proofs.Command.Arguments
import Retrace.Proofs.Formats
import Retrace.Proofs.Graph.Dot
import Retrace.Proofs.Graph.Multigraph
import Retrace.Proofs.Graph.Unroll
import Retrace.Proofs.Graph.Validity
import Retrace.Proofs.Graph.Verdict
import Retrace.Proofs.Json.Floats
import Retrace.Proofs.Json.Integers
import Retrace.Proofs.Json.Lines
import Retrace.Proofs.Json.Parts
import Retrace.Proofs.Json.Powers
import Retrace.Proofs.Json.Records
import Retrace.Proofs.Json.Refusals
import Retrace.Proofs.Json.Restores
import Retrace.Proofs.Number.Quotients
import Retrace.Proofs.Number.Rounding
import Retrace.Proofs.Number.Shortest
import Retrace.Proofs.Run.Course
import Retrace.Proofs.Run.Diagnoses
import Retrace.Proofs.Run.Files
import Retrace.Proofs.Run.Folders
import Retrace.Proofs.Run.Pipeline
import Retrace.Proofs.Run.Release
import Retrace.Proofs.Run.Sources
import Retrace.Proofs.Run.Stages
import Retrace.Proofs.Run.Workspace
import Retrace.Proofs.Service.FrontEnds
import Retrace.Proofs.Service.Graph
import Retrace.Proofs.Source.Addresses
import Retrace.Proofs.Source.Agreement
import Retrace.Proofs.Source.Backtracking
import Retrace.Proofs.Source.Blank
import Retrace.Proofs.Source.Scanning
import Retrace.Proofs.Source.Sites
import Retrace.Proofs.Source.Spelling
import Retrace.Proofs.Table
import Retrace.Proofs.Text.Lines
import Retrace.Proofs.Trace.Datum
import Retrace.Proofs.Trace.Division
import Retrace.Proofs.Trace.Events
import Retrace.Proofs.Trace.History
import Retrace.Proofs.Trace.Origin
import Retrace.Proofs.Trace.Provenance
import Retrace.Proofs.Trace.Replay
import Retrace.Proofs.Trace.Report
import Retrace.Proofs.Trace.Run
import Retrace.Proofs.Value
import Retrace.Proofs.Value.Capture
import Retrace.Proofs.Value.Restores
import Retrace.Proofs.Value.Shape
import Retrace.Run.Rehearsal
import Retrace.Service.Request
import Retrace.Trace.Description
import Retrace.Trace.Read
import Retrace.Trace.Report
import Retrace.Proofs.Trace.Stack
import Retrace.Proofs.Text.Parts
import Retrace.Proofs.Trace.Backtrace
import Retrace.Proofs.Trace.Symbol
import Retrace.Proofs.Trace.Scan
import Retrace.Proofs.Trace.Qualifiers
import Retrace.Proofs.Trace.Qualified
import Retrace.Proofs.Run.Panic
import Retrace.Proofs.Source.WholeNumbers
import Retrace.Proofs.Source.Foreign
import Retrace.Proofs.Source.Enclosing
import Retrace.Proofs.Run.Messages
import Retrace.Proofs.Source.Order.Calls
