import LatencyGate.Binary64
import LatencyGate.Decimal
import LatencyGate.Json.Printer
import LatencyGate.Report
import LatencyGate.Text

namespace LatencyGate

/-- The change from a baseline in percent, in binary64 arithmetic. A baseline of zero has none. -/
def changePercent (baseline current : UInt64) : Option Binary64 :=
  if baseline = 0 then none
  else
    let old := Binary64.ofNat baseline.toNat
    let new := Binary64.ofNat current.toNat
    some (((new.sub old).div old).mul (.ofNat 100))

structure Measurement where
  baseline : UInt64
  current : UInt64
  change : Binary64
  threshold : Binary64
  deriving DecidableEq

inductive Outcome where
  | noBaseline
  | pass (m : Measurement)
  | fail (m : Measurement)
  deriving DecidableEq

def decideGate (threshold : Binary64) (baseline current : UInt64) : Outcome :=
  match changePercent baseline current with
  | none => .noBaseline
  | some change =>
    let m : Measurement := ⟨baseline, current, change, threshold⟩
    if threshold.lt change then .fail m else .pass m

namespace Outcome

def ofReports (threshold : Binary64) (baseline current : Report) : Outcome :=
  decideGate threshold baseline.p99 current.p99

def passed : Outcome → Bool
  | .fail _ => false
  | _ => true

def exitCode (o : Outcome) : UInt32 := if o.passed then 0 else 1

def status : Outcome → String
  | .noBaseline => "no-baseline"
  | .pass _ => "pass"
  | .fail _ => "fail"

def measurement? : Outcome → Option Measurement
  | .noBaseline => none
  | .pass m | .fail m => some m

def verdict (m : Measurement) (passed : Bool) : String :=
  if passed then "PASS: Within threshold"
  else "FAIL: Regression exceeds " ++ m.threshold.percentText ++ "% threshold"

def lines (o : Outcome) : List String :=
  match o.measurement? with
  | none => ["No baseline latency data"]
  | some m => [
    "Baseline p99: " ++ groupedDigits m.baseline.toNat ++ " ns",
    "Current p99:  " ++ groupedDigits m.current.toNat ++ " ns",
    "Change: " ++ m.change.fixedText 1 true ++ "%",
    verdict m o.passed]

def json (o : Outcome) : Json :=
  let figures := match o.measurement? with
    | none => []
    | some m => [
      ("baseline_p99_ns", Json.number (.natural m.baseline)),
      ("current_p99_ns", .number (.natural m.current)),
      ("change_percent", .ofBinary64 m.change),
      ("threshold_percent", .ofBinary64 m.threshold)]
  .ofMembers ([("command", .string "regression"), ("status", .string o.status),
    ("passed", .bool o.passed)] ++ figures)

end Outcome

end LatencyGate
