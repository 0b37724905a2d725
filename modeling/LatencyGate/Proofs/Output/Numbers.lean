import Mathlib
import LatencyGate.Proofs.Output.Decoding
import LatencyGate.Proofs.Output.PrintedDecimals

namespace LatencyGate
open Binary64

variable {baseline reference : UInt64}

theorem nearest_nearest_toNat (n : UInt64) : nearest (nearest n.toNat) = nearest n.toNat := by
  obtain ⟨rank, -, rank_eq⟩ := exists_rank_ofNat n
  rw [← rank_eq, nearest_magnitude]

theorem nearest_greatest_change : nearest (100 * 2 ^ 64) = 100 * 2 ^ 64 := by
  have exact : magnitude (1092 * leadingBit + 100 * 2 ^ 46) =
      (100 * 2 ^ 46 : Nat) * 2 ^ ((1092 : Nat) - 1074 : Int) :=
    magnitude_add (by decide) (by decide)
  have value : (100 * 2 ^ 64 : Rat) = (100 * 2 ^ 46 : Nat) * 2 ^ ((1092 : Nat) - 1074 : Int) := by
    norm_num
  rw [value, ← exact, nearest_magnitude]

theorem neg_hundred_le_roundedChange (nonzero : baseline ≠ 0) (current : UInt64) :
    -100 ≤ roundedChange baseline current := by
  have divisor := nearest_toNat_pos nonzero
  have new_nonneg : 0 ≤ nearest current.toNat := nearest_nonneg (by positivity)
  have difference :=
    calc -nearest baseline.toNat
      _ = nearest (-nearest baseline.toNat) := by rw [nearest_neg, nearest_nearest_toNat]
      _ ≤ nearest (nearest current.toNat - nearest baseline.toNat) := nearest_mono (by linarith)
  have quotient :=
    calc (-1 : Rat)
      _ = nearest (-1) := by rw [nearest_neg, nearest_one]
      _ ≤ nearest (nearest (nearest current.toNat - nearest baseline.toNat) /
            nearest baseline.toNat) :=
          nearest_mono ((le_div_iff₀ divisor).2 (by linarith))
  calc (-100 : Rat)
    _ = nearest ((-100 : Int) : Rat) := by rw [nearest_intCast (by norm_num)]; norm_num
    _ ≤ roundedChange baseline current := nearest_mono (by push_cast; linarith)

theorem roundedChange_le (nonzero : baseline ≠ 0) (current : UInt64) :
    roundedChange baseline current ≤ 100 * 2 ^ 64 := by
  have quotient := (abs_le.1 (abs_nearest_le (abs_quotient_le nonzero current))).2
  rw [← nearest_greatest_change]
  exact nearest_mono (by linarith)

theorem roundedRatio_nonneg (reference target : UInt64) : 0 ≤ roundedRatio reference target :=
  nearest_nonneg (div_nearest_nonneg reference target)

theorem roundedRatio_le (nonzero : reference ≠ 0) (target : UInt64) :
    roundedRatio reference target ≤ 2 ^ 64 := by
  rw [← nearest_two_pow 64]
  exact nearest_mono (div_nearest_le nonzero target)

def Binary64.Within (low high : Rat) (x : Binary64) : Prop :=
  ∃ v, x.toRat? = some v ∧ low ≤ v ∧ v ≤ high

structure Divides (dividend divisor : Binary64) : Prop where
  dividend_finite : dividend.isFinite
  divisor_finite : divisor.isFinite
  divisor_pos : zero.lt divisor = true
  quotient_finite : (dividend.div divisor).isFinite

theorem isFinite_ofNat (n : UInt64) : (ofNat n.toNat).isFinite :=
  isFinite_of_toRat? (toRat?_ofNat_toNat n)

theorem zero_lt_ofNat (nonzero : reference ≠ 0) : zero.lt (ofNat reference.toNat) = true :=
  (lt_iff toRat?_zero (toRat?_ofNat_toNat reference)).2 (nearest_toNat_pos nonzero)

theorem divides_change (nonzero : baseline ≠ 0) (current : UInt64) :
    Divides ((ofNat current.toNat).sub (ofNat baseline.toNat)) (ofNat baseline.toNat) where
  dividend_finite := isFinite_of_toRat? (toRat?_difference nonzero current)
  divisor_finite := isFinite_ofNat baseline
  divisor_pos := zero_lt_ofNat nonzero
  quotient_finite := isFinite_of_toRat? (toRat?_quotient nonzero current)

theorem divides_ratio (nonzero : reference ≠ 0) (target : UInt64) :
    Divides (ofNat target.toNat) (ofNat reference.toNat) where
  dividend_finite := isFinite_ofNat target
  divisor_finite := isFinite_ofNat reference
  divisor_pos := zero_lt_ofNat nonzero
  quotient_finite := isFinite_of_toRat? (toRat?_ratio nonzero target)

/-! ## Decisions -/

structure ShowsNumber (o : Outcome) (m : Measurement) : Prop where
  computed : changePercent m.baseline m.current = some m.change
  division : Divides ((ofNat m.current.toNat).sub (ofNat m.baseline.toNat))
    (ofNat m.baseline.toNat)
  within : m.change.Within (-100) (100 * 2 ^ 64)
  positive_zero : m.change ≠ zero.neg
  text : ∃ d : FixedDecimal 1, o.lines[2]? = some ("Change: " ++ d.text true ++ "%")
  json : o.json.member? "change_percent" = some (.number (.float m.change))

theorem Outcome.member?_change {o : Outcome} {m : Measurement}
    (measured : o.measurement? = some m) :
    o.json.member? "change_percent" = some (.ofBinary64 m.change) := by
  rw [member?_json, measured]
  simp [Measurement.members, Json.lookup_member]

theorem showsNumber_decideGate (threshold : Binary64) (nonzero : baseline ≠ 0)
    (current : UInt64) :
    ∃ m, (decideGate threshold baseline current).measurement? = some m ∧
      ShowsNumber (decideGate threshold baseline current) m := by
  obtain ⟨rank, computed, value⟩ := changePercent_eq_finite nonzero current
  obtain ⟨d, shown, -⟩ := exists_showsChange nonzero current
  have measured := measurement?_decideGate computed threshold
  refine ⟨_, measured, ?_⟩
  constructor
  case computed => exact computed
  case division => exact divides_change nonzero current
  case within =>
    exact ⟨_, congrArg some value, neg_hundred_le_roundedChange nonzero current,
      roundedChange_le nonzero current⟩
  case positive_zero =>
    intro negative_zero
    -- The sign says that the value is less than zero, and the rank that it is zero.
    obtain ⟨sign, rank_eq⟩ := Binary64.finite.inj negative_zero
    rw [rank_eq] at value
    have negative := of_decide_eq_true sign
    have : roundedChange baseline current = 0 := by
      rw [← value, sign]
      change -magnitude 0 = 0
      rw [magnitude_zero, neg_zero]
    linarith
  case text => exact ⟨d, shown.line threshold⟩
  case json => rw [Outcome.member?_change measured, Json.ofBinary64_of_isFinite rfl]

/-! ## Comparisons -/

structure Metric.ShowsNumber (m : Metric) (shown : Option Json) : Prop where
  computed : m.ratio = (ofNat m.target.toNat).div (ofNat m.reference.toNat)
  division : Divides (ofNat m.target.toNat) (ofNat m.reference.toNat)
  within : m.ratio.Within 0 (2 ^ 64)
  json : shown.bind (Json.member? "ratio") = some (.number (.float m.ratio))

theorem Metric.member?_ratio {reference target difference : String} (m : Metric)
    (distinct : [reference, target, "ratio", difference].Nodup) :
    (Json.ofMembers (m.members reference target difference)).member? "ratio" =
      some (.ofBinary64 m.ratio) := by
  rw [Json.member?_ofMembers (by exact distinct)]
  simp only [List.nodup_cons, List.mem_cons, List.not_mem_nil, or_false, not_or] at distinct
  obtain ⟨⟨-, first, -⟩, ⟨second, -⟩, -⟩ := distinct
  simp [members, Json.lookup_member, Ne.symm first, Ne.symm second]

theorem Metric.showsNumber_ofFigures? {first second third : String} (nonzero : reference ≠ 0)
    (target : UInt64) (distinct : [first, second, "ratio", third].Nodup) :
    ∃ m, ofFigures? reference target = some m ∧
      m.ShowsNumber (some (.ofMembers (m.members first second third))) := by
  refine ⟨_, ofFigures?_eq_some nonzero target, ?_⟩
  constructor
  case computed => rfl
  case division => exact divides_ratio nonzero target
  case within =>
    exact ⟨_, toRat?_ratio nonzero target, roundedRatio_nonneg reference target,
      roundedRatio_le nonzero target⟩
  case json =>
    rw [Option.bind_some, member?_ratio _ distinct,
      Json.ofBinary64_of_isFinite (divides_ratio nonzero target).quotient_finite]

theorem Comparison.showsNumber_latency {a : Report} (nonzero : a.p99 ≠ 0) (b : Report) :
    ∃ m, (ofReports a b).latency = some m ∧
      m.ShowsNumber ((ofReports a b).json.member? "latency") ∧
      ∃ d : FixedDecimal 2,
        (ofReports a b).lines[9]? = some ("  Ratio: " ++ d.text false ++ "x") := by
  obtain ⟨m, figures, shows⟩ := Metric.showsNumber_ofFigures? nonzero b.p99
    (by decide : ["reference_p99_ns", "target_p99_ns", "ratio", "diff_ns"].Nodup)
  obtain ⟨d, shown, -⟩ := exists_showsRatio nonzero b.p99
  refine ⟨m, figures, ?_, d, shown.line a b rfl rfl⟩
  rw [member?_latency, show (ofReports a b).latency = some m from figures]
  exact shows

theorem Comparison.showsNumber_secondary {figure target : UInt64} (nonzero : figure ≠ 0) :
    ∃ m, Metric.ofFigures? figure target = some m ∧
      m.ShowsNumber ((Metric.ofFigures? figure target).map metricJson) := by
  obtain ⟨m, figures, shows⟩ := Metric.showsNumber_ofFigures? nonzero target
    (by decide : ["reference", "target", "ratio", "diff"].Nodup)
  refine ⟨m, figures, ?_⟩
  rw [figures]
  exact shows

/-- For every two reports and every threshold: what is there to be computed is a number, and is
shown as one. -/
theorem figures_are_numbers (threshold : Binary64) (reference target : Report) :
    let o := Outcome.ofReports threshold reference target
    let c := Comparison.ofReports reference target
    (reference.p99 = 0 ∧ o = .noBaseline ∨ ∃ m, o.measurement? = some m ∧ ShowsNumber o m) ∧
    (reference.p99 = 0 ∧ c.latency = none ∨ ∃ m, c.latency = some m ∧
      m.ShowsNumber (c.json.member? "latency") ∧
      ∃ d : FixedDecimal 2, c.lines[9]? = some ("  Ratio: " ++ d.text false ++ "x")) ∧
    (reference.inferenceRate = 0 ∧ c.throughput = none ∨ ∃ m, c.throughput = some m ∧
      m.ShowsNumber (c.json.member? "throughput")) ∧
    (reference.wcetBound = 0 ∧ c.wcet = none ∨ ∃ m, c.wcet = some m ∧
      m.ShowsNumber (c.json.member? "wcet")) := by
  dsimp only
  refine ⟨?decision, ?latency, ?throughput, ?wcet⟩
  case decision =>
    by_cases zero : reference.p99 = 0
    · left
      exact ⟨zero, by rw [Outcome.ofReports, decideGate, changePercent, if_pos zero]⟩
    · exact .inr (showsNumber_decideGate threshold zero target.p99)
  case latency =>
    by_cases zero : reference.p99 = 0
    · exact .inl ⟨zero, if_pos zero⟩
    · exact .inr (Comparison.showsNumber_latency zero target)
  case throughput =>
    rw [Comparison.member?_throughput]
    by_cases zero : reference.inferenceRate = 0
    · exact .inl ⟨zero, if_pos zero⟩
    · exact .inr (Comparison.showsNumber_secondary zero)
  case wcet =>
    rw [Comparison.member?_wcet]
    by_cases zero : reference.wcetBound = 0
    · exact .inl ⟨zero, if_pos zero⟩
    · exact .inr (Comparison.showsNumber_secondary zero)

example :
    changePercent 1 0 = some (ofNat 100).neg ∧
      changePercent 1 18446744073709551615 = some (ofNat (100 * 2 ^ 64)) ∧
      (Metric.ofFigures? 1 18446744073709551615).map Metric.ratio = some (ofNat (2 ^ 64)) := by
  decide +kernel

end LatencyGate
