import LatencyGate.Binary64
import LatencyGate.Decimal
import LatencyGate.Json.Printer
import LatencyGate.Report
import LatencyGate.Text

namespace LatencyGate

structure Metric where
  reference : UInt64
  target : UInt64
  ratio : Binary64
  difference : Int64
  deriving DecidableEq

def clampedDifference (target reference : UInt64) : Int64 :=
  let difference := (target.toNat : Int) - reference.toNat
  if difference < Int64.minValue.toInt then Int64.minValue
  else if Int64.maxValue.toInt < difference then Int64.maxValue
  else .ofInt difference

def Metric.ofFigures? (reference target : UInt64) : Option Metric :=
  if reference = 0 then none
  else some {
    reference, target
    ratio := (Binary64.ofNat target.toNat).div (.ofNat reference.toNat)
    difference := clampedDifference target reference }

/-- Whether two outputs are identical by their hashes. An empty hash says nothing. -/
def identicalOutputs (reference target : String) : Bool := reference != "" && reference == target

structure Comparison where
  referencePlatform : String
  targetPlatform : String
  latency : Option Metric
  throughput : Option Metric
  wcet : Option Metric
  identical : Bool
  deriving DecidableEq

def ruler : String := String.ofList (List.replicate 60 '=')

namespace Comparison

def ofReports (reference target : Report) : Comparison where
  referencePlatform := reference.platformName
  targetPlatform := target.platformName
  latency := Metric.ofFigures? reference.p99 target.p99
  throughput := Metric.ofFigures? reference.inferenceRate target.inferenceRate
  wcet := Metric.ofFigures? reference.wcetBound target.wcetBound
  identical := identicalOutputs reference.hash target.hash

def identityText (c : Comparison) : String :=
  if c.identical then "✓ VERIFIED" else "✗ MISMATCH"

def latencyLines (c : Comparison) : List String :=
  match c.latency with
  | none => []
  | some m => [
    "Latency (p99):",
    "  " ++ c.referencePlatform ++ ": " ++ groupedDigits m.reference.toNat ++ " ns",
    "  " ++ c.targetPlatform ++ ": " ++ groupedDigits m.target.toNat ++ " ns",
    "  Ratio: " ++ m.ratio.fixedText 2 false ++ "x"]

def lines (c : Comparison) : List String := [
    ruler,
    "  Cross-Platform Performance Comparison",
    "  Reference: " ++ c.referencePlatform,
    "  Target: " ++ c.targetPlatform,
    ruler,
    ""] ++ c.latencyLines ++ [
    "",
    "Bit Identity: " ++ c.identityText,
    "",
    ruler]

def latencyJson (m : Metric) : Json := .ofMembers [
  ("reference_p99_ns", .number (.natural m.reference)),
  ("target_p99_ns", .number (.natural m.target)),
  ("ratio", .ofBinary64 m.ratio),
  ("diff_ns", .ofInt64 m.difference)]

def metricJson (m : Metric) : Json := .ofMembers [
  ("reference", .number (.natural m.reference)),
  ("target", .number (.natural m.target)),
  ("ratio", .ofBinary64 m.ratio),
  ("diff", .ofInt64 m.difference)]

def metricMember (key : String) : Option Metric → List (String × Json)
  | none => []
  | some m => [(key, metricJson m)]

def json (c : Comparison) : Json :=
  .ofMembers ([("command", .string "compare"), ("reference", .string c.referencePlatform),
    ("target", .string c.targetPlatform),
    ("latency", (c.latency.map latencyJson).getD .null)] ++
    metricMember "throughput" c.throughput ++ metricMember "wcet" c.wcet ++
    [("outputs_identical", .bool c.identical)])

end Comparison

end LatencyGate
