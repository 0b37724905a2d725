import Mathlib
import LatencyGate.Proofs.Comparison.Figures
import LatencyGate.Proofs.Decimal.Fixed
import LatencyGate.Proofs.Gate.Monotonicity
import LatencyGate.Proofs.Gate.Sign

namespace LatencyGate
open Binary64

variable {reference : UInt64}

theorem FixedDecimal.value_mono {places : Nat} {d d' : FixedDecimal places} {v w : Rat}
    (near : IsNearestEven (v * 10 ^ places) d.units)
    (near' : IsNearestEven (w * 10 ^ places) d'.units) (le : v ≤ w) : d.value ≤ d'.value :=
  value_le_value (near.mono near' (by gcongr))

structure ShowsChange (baseline current : UInt64) (d : FixedDecimal 1) : Prop where
  line : ∀ threshold, (decideGate threshold baseline current).lines[2]? =
    some ("Change: " ++ d.text true ++ "%")
  sign : d.negative = false ↔ (ofNat baseline.toNat).le (ofNat current.toNat) = true
  nearest : ∃ change v, changePercent baseline current = some change ∧ change.toRat? = some v ∧
    IsNearestEven (v * 10) d.units

theorem exists_showsChange (nonzero : reference ≠ 0) (current : UInt64) :
    ∃ d, ShowsChange reference current d ∧
      IsNearestEven (roundedChange reference current * 10 ^ 1) d.units := by
  obtain ⟨rank, computed, value⟩ := changePercent_eq_finite nonzero current
  have near := isNearestEven_signedMagnitude 1 (decide (roundedChange reference current < 0)) rank
  rw [value] at near
  refine ⟨.nearest 1 (decide (roundedChange reference current < 0)) (magnitude rank), ?_, near⟩
  constructor
  case line =>
    intro threshold
    rw [lines_decideGate computed, fixedText_finite]
  case sign =>
    rw [le_iff (toRat?_ofNat_toNat reference) (toRat?_ofNat_toNat current), ← not_lt,
      ← roundedChange_neg_iff nonzero]
    exact decide_eq_false_iff_not
  case nearest =>
    rw [pow_one] at near
    exact ⟨_, _, computed, congrArg some value, near⟩

structure ShowsRatio (reference target : UInt64) (d : FixedDecimal 2) : Prop where
  line : ∀ a b : Report, a.p99 = reference → b.p99 = target →
    (Comparison.ofReports a b).lines[9]? = some ("  Ratio: " ++ d.text false ++ "x")
  sign : d.negative = false
  nearest : ∃ m v, Metric.ofFigures? reference target = some m ∧ m.ratio.toRat? = some v ∧
    IsNearestEven (v * 100) d.units

theorem Comparison.lines_of_latency {c : Comparison} {m : Metric} (latency : c.latency = some m) :
    c.lines[9]? = some ("  Ratio: " ++ m.ratio.fixedText 2 false ++ "x") := by
  rw [lines, latencyLines, latency]
  rfl

theorem exists_showsRatio (nonzero : reference ≠ 0) (target : UInt64) :
    ∃ d, ShowsRatio reference target d ∧
      IsNearestEven (roundedRatio reference target * 10 ^ 2) d.units := by
  obtain ⟨rank, computed, value⟩ := ratio_eq_finite nonzero target
  have figures := Metric.ofFigures?_eq_some nonzero target
  have near := isNearestEven_signedMagnitude 2 false rank
  rw [show signedMagnitude false rank = roundedRatio reference target from value] at near
  refine ⟨.nearest 2 false (magnitude rank), ?_, near⟩
  rw [computed] at figures
  constructor
  case line =>
    rintro a b rfl rfl
    rw [Comparison.lines_of_latency figures, fixedText_finite]
  case sign => rfl
  case nearest =>
    norm_num at near
    exact ⟨_, _, figures, congrArg some value, near⟩

/-- With a reference the decimals shown are the nearest ones, of either sign, and they grow with the
other figure. -/
theorem printed_decimals_nearest (nonzero : reference ≠ 0) :
    (∃ shown : UInt64 → FixedDecimal 1, (∀ current, ShowsChange reference current (shown current)) ∧
      ∀ current current', current ≤ current' →
        (shown current).value ≤ (shown current').value) ∧
    ∃ shown : UInt64 → FixedDecimal 2, (∀ target, ShowsRatio reference target (shown target)) ∧
      ∀ target target', target ≤ target' → (shown target).value ≤ (shown target').value := by
  choose change change_shown change_near using exists_showsChange nonzero
  choose ratio ratio_shown ratio_near using exists_showsRatio nonzero
  refine ⟨⟨change, change_shown, fun current current' slower => ?_⟩,
    ⟨ratio, ratio_shown, fun target target' slower => ?_⟩⟩
  · exact FixedDecimal.value_mono (change_near current) (change_near current')
      (roundedChange_mono nonzero slower)
  · exact FixedDecimal.value_mono (ratio_near target) (ratio_near target') (roundedRatio_mono slower)

theorem printed_decimals_nearest_eight_seconds :
    let reference : Report := { latency := some { p99 := some 8000000000 } }
    let target : Report := { latency := some { p99 := some 1000000000 } }
    (8000000000 : UInt64) ≠ 0 ∧
      (∃ d, ShowsChange 8000000000 7999999999 d) ∧
      (decideGate zero 8000000000 7999999999).lines[2]? = some "Change: -0.0%" ∧
      (∃ d, ShowsRatio reference.p99 target.p99 d) ∧
      (Comparison.ofReports reference target).lines[9]? = some "  Ratio: 0.12x" := by
  intro reference target
  have nonzero : (8000000000 : UInt64) ≠ 0 := by decide
  obtain ⟨⟨change, change_shown, -⟩, ratio, ratio_shown, -⟩ := printed_decimals_nearest nonzero
  exact ⟨nonzero, ⟨_, change_shown _⟩, by decide +kernel, ⟨_, ratio_shown _⟩, by decide +kernel⟩

end LatencyGate
