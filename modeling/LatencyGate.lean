import LatencyGate.Main
import LatencyGate.Proofs.Arguments.Dashes
import LatencyGate.Proofs.Arguments.Reading
import LatencyGate.Proofs.Arguments.Threshold
import LatencyGate.Proofs.Binary64.Rounding
import LatencyGate.Proofs.Binary64.Spacing
import LatencyGate.Proofs.Binary64.Values
import LatencyGate.Proofs.Comparison.Direction
import LatencyGate.Proofs.Comparison.Figures
import LatencyGate.Proofs.Comparison.Framing
import LatencyGate.Proofs.Comparison.Proportion
import LatencyGate.Proofs.Comparison.Readability
import LatencyGate.Proofs.Decimal.Fixed
import LatencyGate.Proofs.Decimal.Percentages
import LatencyGate.Proofs.Decimal.Rounding
import LatencyGate.Proofs.Gate.Accuracy
import LatencyGate.Proofs.Gate.Change
import LatencyGate.Proofs.Gate.Exactness
import LatencyGate.Proofs.Gate.Monotonicity
import LatencyGate.Proofs.Gate.Ordering
import LatencyGate.Proofs.Gate.Sign
import LatencyGate.Proofs.Json.Arrangement
import LatencyGate.Proofs.Json.Decimals
import LatencyGate.Proofs.Json.Edits
import LatencyGate.Proofs.Json.Exact
import LatencyGate.Proofs.Json.Grammar
import LatencyGate.Proofs.Json.Meaning
import LatencyGate.Proofs.Json.Members
import LatencyGate.Proofs.Json.Numbers
import LatencyGate.Proofs.Json.Readable
import LatencyGate.Proofs.Json.Reading.Basic
import LatencyGate.Proofs.Json.Reading.Lists
import LatencyGate.Proofs.Json.Reading.Numbers
import LatencyGate.Proofs.Json.Reading.Records
import LatencyGate.Proofs.Json.Reading.Repeated
import LatencyGate.Proofs.Json.Reading.Skipped
import LatencyGate.Proofs.Json.Reading.Strings
import LatencyGate.Proofs.Json.Reading.Values
import LatencyGate.Proofs.Json.Records
import LatencyGate.Proofs.Json.Respelling
import LatencyGate.Proofs.Json.Strings
import LatencyGate.Proofs.Json.Writing.Numbers
import LatencyGate.Proofs.Json.Writing.Values
import LatencyGate.Proofs.Output.Decoding
import LatencyGate.Proofs.Output.Dependence
import LatencyGate.Proofs.Output.Formats
import LatencyGate.Proofs.Output.Lossless
import LatencyGate.Proofs.Output.Numbers
import LatencyGate.Proofs.Output.PrintedDecimals
import LatencyGate.Proofs.Output.Shape
import LatencyGate.Proofs.Report.Counts
import LatencyGate.Proofs.Report.Defaults
import LatencyGate.Proofs.Report.Extension
import LatencyGate.Proofs.Report.LooseFields
import LatencyGate.Proofs.Report.Meaning
import LatencyGate.Proofs.Report.Repetition
import LatencyGate.Proofs.Report.Respelling
import LatencyGate.Proofs.Report.RoundTrip
import LatencyGate.Proofs.Report.Types
import LatencyGate.Proofs.Run.ComparisonStatus
import LatencyGate.Proofs.Run.Diagnostics
import LatencyGate.Proofs.Run.Execution
import LatencyGate.Proofs.Run.ExitStatus
import LatencyGate.Proofs.Run.FullSink
import LatencyGate.Proofs.Text.Grouping
import LatencyGate.Proofs.Text.Lines
