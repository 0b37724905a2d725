import Mathlib
import LatencyGate.Proofs.Gate.Change
import LatencyGate.Proofs.Run.Execution

namespace LatencyGate

inductive Ending where
  | help
  | usage
  | failure
  | decision

theorem ofReports_eq_noBaseline_iff (threshold : Binary64) (baseline current : Report) :
    Outcome.ofReports threshold baseline current = .noBaseline ↔ baseline.p99 = 0 := by
  unfold Outcome.ofReports
  by_cases zero : baseline.p99 = 0
  · simp [decideGate, changePercent, zero]
  · obtain ⟨change, computed, -⟩ := changePercent_eq_some zero current.p99
    rw [decideGate_eq computed]
    split <;> simp [zero]

theorem exitCode_ne_two (o : Outcome) : o.exitCode ≠ 2 := by
  cases o <;> simp [Outcome.exitCode, Outcome.passed]

section
variable {files : Files} {args : List String} {setting : Option String} {settings : GateSettings}

def Ending.due (files : Files) (args : List String) : Ending :=
  match GateSettings.ofArguments args with
  | .ok .help => .help
  | .error .missing => .usage
  | .error _ => .failure
  | .ok (.run settings) =>
    match Report.load files settings.baseline, Report.load files settings.current with
    | .ok _, .ok _ => .decision
    | _, _ => .failure

end

end LatencyGate
