import Mathlib
import LatencyGate.Comparison
import LatencyGate.Gate
import LatencyGate.Proofs.Json.Arrangement
import LatencyGate.Proofs.Json.Writing.Numbers

namespace LatencyGate

namespace Json

def text? : Json → Option String
  | .string s => some s
  | _ => none

def bool? : Json → Option Bool
  | .bool b => some b
  | _ => none

def int64? : Json → Option Int64
  | .number (.natural n) => if n.toNat < 0x8000000000000000 then some (.ofInt n.toNat) else none
  | .number (.negSucc n) => some (.ofInt (.negSucc n.val))
  | _ => none

def binary64? : Json → Option Binary64
  | .number (.natural n) => some (.round false n.toNat)
  | .number (.negSucc n) => some (.round true (n.val + 1 : Nat))
  | .number (.float x) => some x
  | _ => none

section
variable {α : Type} (decode : Json → Option α) (key : String) (v : Json)

def required? : Option α := (v.member? key).bind decode

def omitted? : Option (Option α) :=
  match v.member? key with
  | none => some none
  | some value => (decode value).map some

def nullable? : Option (Option α) :=
  match v.member? key with
  | none => none
  | some .null => some none
  | some value => (decode value).map some

end

theorem int64?_ofInt64 (i : Int64) : (ofInt64 i).int64? = some i := by
  have lower := i.le_toInt
  have upper := i.toInt_lt
  have back := Int64.ofInt_toInt i
  unfold ofInt64
  cases integer : i.toInt with
  | ofNat n =>
      rw [integer] at upper back
      have fits : n < 0x8000000000000000 := by simpa using upper
      have toNat : (UInt64.ofNat n).toNat = n :=
        UInt64.toNat_ofNat_of_lt' (fits.trans (by decide))
      simp only [int64?, toNat, fits, ↓reduceIte]
      exact congrArg some back
  | negSucc n =>
      rw [integer] at lower back
      have fits : n < 0x8000000000000000 := by
        rw [Int.negSucc_eq] at lower
        omega
      simp only [fits, ↓reduceDIte, int64?]
      exact congrArg some back

theorem ofBinary64_of_isFinite {x : Binary64} (finite : x.isFinite) :
    ofBinary64 x = .number (.float x) :=
  if_pos finite

theorem binary64?_ofBinary64 {x : Binary64} (finite : x.isFinite) :
    (ofBinary64 x).binary64? = some x := by
  rw [ofBinary64_of_isFinite finite]
  rfl

end Json

open Json

def Metric.ofJson? (reference target difference : String) (v : Json) : Option Metric :=
  return {
    reference := ← v.required? natural? reference
    target := ← v.required? natural? target
    ratio := ← v.required? binary64? "ratio"
    difference := ← v.required? int64? difference }

def Comparison.ofJson? (v : Json) : Option Comparison :=
  return {
    referencePlatform := ← v.required? text? "reference"
    targetPlatform := ← v.required? text? "target"
    latency := ← v.nullable? (Metric.ofJson? "reference_p99_ns" "target_p99_ns" "diff_ns") "latency"
    throughput := ← v.omitted? (Metric.ofJson? "reference" "target" "diff") "throughput"
    wcet := ← v.omitted? (Metric.ofJson? "reference" "target" "diff") "wcet"
    identical := ← v.required? bool? "outputs_identical" }

def Comparison.IsFinite (c : Comparison) : Prop :=
  ∀ m ∈ [c.latency, c.throughput, c.wcet], ∀ metric ∈ m, metric.ratio.isFinite

def Metric.members (reference target difference : String) (m : Metric) : List (String × Json) := [
  (reference, .number (.natural m.reference)), (target, .number (.natural m.target)),
  ("ratio", .ofBinary64 m.ratio), (difference, .ofInt64 m.difference)]

theorem Metric.ofJson?_members {reference target difference : String} {m : Metric}
    (finite : m.ratio.isFinite) (distinct : [reference, target, "ratio", difference].Nodup) :
    Metric.ofJson? reference target difference
      (ofMembers (m.members reference target difference)) = some m := by
  have found (key : String) : (ofMembers (m.members reference target difference)).member? key =
      (m.members reference target difference).lookup key :=
    member?_ofMembers (by exact distinct) key
  simp only [List.nodup_cons, List.mem_cons, List.not_mem_nil, or_false, not_or] at distinct
  obtain ⟨⟨first, second, third⟩, ⟨fourth, fifth⟩, sixth, -⟩ := distinct
  simp only [Metric.ofJson?, required?, found]
  simp [members, lookup_member, Ne.symm first, Ne.symm second, Ne.symm third, Ne.symm fourth,
    Ne.symm fifth, Ne.symm sixth, natural?, binary64?_ofBinary64 finite, int64?_ofInt64]

theorem Comparison.member?_json (c : Comparison) (key : String) :
    c.json.member? key = ([("command", .string "compare"), ("reference", .string c.referencePlatform),
      ("target", .string c.targetPlatform), ("latency", (c.latency.map latencyJson).getD .null)] ++
      metricMember "throughput" c.throughput ++ metricMember "wcet" c.wcet ++
      [("outputs_identical", .bool c.identical)] : List (String × Json)).lookup key := by
  refine member?_ofMembers ?_ key
  cases c.throughput <;> cases c.wcet <;> simp [metricMember]

section
variable (c : Comparison)

theorem Comparison.member?_latency :
    c.json.member? "latency" = some ((c.latency.map latencyJson).getD .null) := by
  rw [member?_json]
  simp [lookup_member]

theorem Comparison.member?_throughput :
    c.json.member? "throughput" = c.throughput.map metricJson := by
  rw [member?_json]
  cases c.throughput <;> cases c.wcet <;> simp [metricMember, lookup_member]

theorem Comparison.member?_wcet : c.json.member? "wcet" = c.wcet.map metricJson := by
  rw [member?_json]
  cases c.throughput <;> cases c.wcet <;> simp [metricMember, lookup_member]

theorem Comparison.member?_identical :
    c.json.member? "outputs_identical" = some (.bool c.identical) := by
  rw [member?_json]
  cases c.throughput <;> cases c.wcet <;> simp [metricMember, lookup_member]

end

theorem omitted?_metric {v : Json} {key : String} {figure : Option Metric}
    (member : v.member? key = figure.map Comparison.metricJson)
    (finite : ∀ m ∈ figure, m.ratio.isFinite) :
    v.omitted? (Metric.ofJson? "reference" "target" "diff") key = some figure := by
  rw [omitted?, member]
  cases figure with
  | none => rfl
  | some m =>
      have metric := Metric.ofJson?_members (finite m rfl) (by decide :
        ["reference", "target", "ratio", "diff"].Nodup)
      exact congrArg (Option.map some) metric

theorem nullable?_latency {c : Comparison} (finite : ∀ m ∈ c.latency, m.ratio.isFinite) :
    c.json.nullable? (Metric.ofJson? "reference_p99_ns" "target_p99_ns" "diff_ns") "latency" =
      some c.latency := by
  rw [nullable?, Comparison.member?_latency]
  cases latency : c.latency with
  | none => rfl
  | some m =>
      have metric := Metric.ofJson?_members (finite m latency) (by decide :
        ["reference_p99_ns", "target_p99_ns", "ratio", "diff_ns"].Nodup)
      exact congrArg (Option.map some) metric

theorem Comparison.ofJson?_json {c : Comparison} (finite : c.IsFinite) :
    ofJson? c.json = some c := by
  have latency := nullable?_latency (finite c.latency (by simp))
  have throughput := omitted?_metric c.member?_throughput (finite c.throughput (by simp))
  have wcet := omitted?_metric c.member?_wcet (finite c.wcet (by simp))
  have reference : c.json.required? text? "reference" = some c.referencePlatform := by
    simp [required?, member?_json, lookup_member, text?]
  have target : c.json.required? text? "target" = some c.targetPlatform := by
    simp [required?, member?_json, lookup_member, text?]
  have identical : c.json.required? bool? "outputs_identical" = some c.identical := by
    simp [required?, member?_identical, bool?]
  simp [ofJson?, latency, throughput, wcet, reference, target, identical]

def Measurement.ofJson? (v : Json) : Option (Option Measurement) :=
  if ["baseline_p99_ns", "current_p99_ns", "change_percent", "threshold_percent"].all
      fun key => (v.member? key).isNone then some none
  else return some {
    baseline := ← v.required? natural? "baseline_p99_ns"
    current := ← v.required? natural? "current_p99_ns"
    change := ← v.required? binary64? "change_percent"
    threshold := ← v.required? binary64? "threshold_percent" }

def Outcome.named? : String → Option Measurement → Option Outcome
  | "no-baseline", none => some .noBaseline
  | "pass", some m => some (.pass m)
  | "fail", some m => some (.fail m)
  | _, _ => none

def Outcome.ofJson? (v : Json) : Option Outcome := do
  let o ← named? (← v.required? text? "status") (← Measurement.ofJson? v)
  if (← v.required? bool? "passed") = o.passed then some o else none

def Outcome.IsFinite (o : Outcome) : Prop :=
  ∀ m ∈ o.measurement?, m.change.isFinite ∧ m.threshold.isFinite

def Measurement.members (m : Measurement) : List (String × Json) := [
  ("baseline_p99_ns", .number (.natural m.baseline)),
  ("current_p99_ns", .number (.natural m.current)), ("change_percent", .ofBinary64 m.change),
  ("threshold_percent", .ofBinary64 m.threshold)]

theorem Outcome.member?_json (o : Outcome) (key : String) :
    o.json.member? key = ([("command", .string "regression"), ("status", .string o.status),
      ("passed", .bool o.passed)] ++ (o.measurement?.map Measurement.members).getD [] :
        List (String × Json)).lookup key := by
  cases o <;> exact member?_ofMembers (by simp [measurement?]) key

theorem Measurement.ofJson?_json {o : Outcome} (finite : o.IsFinite) :
    ofJson? o.json = some o.measurement? := by
  cases o with
  | noBaseline => simp [ofJson?, Outcome.member?_json, lookup_member, Outcome.measurement?]
  | pass m | fail m =>
      obtain ⟨change, threshold⟩ := finite m rfl
      simp [ofJson?, Outcome.member?_json, lookup_member, Outcome.measurement?, members, required?,
        natural?, binary64?_ofBinary64 change, binary64?_ofBinary64 threshold]

theorem Outcome.ofJson?_json {o : Outcome} (finite : o.IsFinite) : ofJson? o.json = some o := by
  have status : o.json.required? text? "status" = some o.status := by
    simp [required?, member?_json, lookup_member, text?]
  have passed : o.json.required? bool? "passed" = some o.passed := by
    simp [required?, member?_json, lookup_member, bool?]
  have named : named? o.status o.measurement? = some o := by
    cases o <;> rfl
  simp [ofJson?, status, passed, Measurement.ofJson?_json finite, named]

end LatencyGate
