import Mathlib
import LatencyGate.Proofs.Gate.Accuracy
import LatencyGate.Proofs.Gate.Sign

namespace LatencyGate
open Binary64

variable {baseline current baseline' current' : UInt64}

theorem div_eq_of_proportional (nonzero : baseline ≠ 0) (nonzero' : baseline' ≠ 0)
    (same : current.toNat * baseline'.toNat = current'.toNat * baseline.toNat) :
    (current.toNat : Rat) / baseline.toNat = current'.toNat / baseline'.toNat := by
  rw [div_eq_div_iff (toNat_pos nonzero).ne' (toNat_pos nonzero').ne']
  exact_mod_cast same

/-- Changes in the same proportion are the same number: where both figures are equal both changes
are positive zero, and otherwise they have the same value. -/
theorem changePercent_eq_of_proportional (nonzero : baseline ≠ 0) (nonzero' : baseline' ≠ 0)
    (old : baseline.toNat ≤ 2 ^ 53) (new : current.toNat ≤ 2 ^ 53)
    (old' : baseline'.toNat ≤ 2 ^ 53) (new' : current'.toNat ≤ 2 ^ 53)
    (same : current.toNat * baseline'.toNat = current'.toNat * baseline.toNat) :
    changePercent baseline current = changePercent baseline' current' := by
  have ratios := div_eq_of_proportional nonzero nonzero' same
  -- The value does not tell the sign of a zero.
  by_cases unchanged : nearest current.toNat = nearest baseline.toNat
  · have unchanged' : nearest current'.toNat = nearest baseline'.toNat := by
      rw [nearest_natCast new, nearest_natCast old] at unchanged
      rw [unchanged, div_self (toNat_pos nonzero).ne', eq_comm,
        div_eq_one_iff_eq (toNat_pos nonzero').ne'] at ratios
      rw [ratios]
    rw [changePercent_eq_zero nonzero unchanged, changePercent_eq_zero nonzero' unchanged']
  · have values : roundedChange baseline current = roundedChange baseline' current' := by
      rw [roundedChange_of_small old new, roundedChange_of_small old' new', sub_div, sub_div,
        div_self (toNat_pos nonzero).ne', div_self (toNat_pos nonzero').ne', ratios]
    obtain ⟨change, computed, value⟩ := changePercent_eq_some nonzero current
    obtain ⟨change', computed', value'⟩ := changePercent_eq_some nonzero' current'
    rw [← values] at value'
    rw [computed, computed', eq_of_toRat?_eq (roundedChange_ne_zero nonzero unchanged) value value']

theorem change_decideGate {change : Binary64}
    (computed : changePercent baseline current = some change) (threshold : Binary64) :
    (decideGate threshold baseline current).measurement?.map Measurement.change = some change := by
  rw [measurement?_decideGate computed, Option.map_some]

structure DecidedAlike (baseline current baseline' current' : UInt64) : Prop where
  change : ∃ change, changePercent baseline current = some change ∧
    changePercent baseline' current' = some change ∧ change.isFinite
  status : ∀ threshold, (decideGate threshold baseline current).status =
    (decideGate threshold baseline' current').status
  percent : ∀ threshold,
    (decideGate threshold baseline current).measurement?.map Measurement.change =
      (decideGate threshold baseline' current').measurement?.map Measurement.change
  ratio : ∃ m m', Metric.ofFigures? baseline current = some m ∧
    Metric.ofFigures? baseline' current' = some m' ∧ m.ratio = m'.ratio ∧ m.ratio.isFinite
  latency : ∀ a b a' b' : Report, a.p99 = baseline → b.p99 = current → a'.p99 = baseline' →
    b'.p99 = current' → (Comparison.ofReports a b).latency.map Metric.ratio =
      (Comparison.ofReports a' b').latency.map Metric.ratio

theorem decides_by_proportion (nonzero : baseline ≠ 0) (nonzero' : baseline' ≠ 0)
    (old : baseline.toNat ≤ 2 ^ 53) (new : current.toNat ≤ 2 ^ 53)
    (old' : baseline'.toNat ≤ 2 ^ 53) (new' : current'.toNat ≤ 2 ^ 53)
    (same : current.toNat * baseline'.toNat = current'.toNat * baseline.toNat) :
    DecidedAlike baseline current baseline' current' := by
  obtain ⟨change, computed, value⟩ := changePercent_eq_some nonzero current
  have computed' := computed
  rw [changePercent_eq_of_proportional nonzero nonzero' old new old' new' same] at computed'
  have figures := Metric.ofFigures?_eq_some nonzero current
  have figures' := Metric.ofFigures?_eq_some nonzero' current'
  have ratios : (ofNat current.toNat).div (ofNat baseline.toNat) =
      (ofNat current'.toNat).div (ofNat baseline'.toNat) := by
    rw [ratio_eq_round nonzero, ratio_eq_round nonzero', nearest_natCast old, nearest_natCast new,
      nearest_natCast old', nearest_natCast new', div_eq_of_proportional nonzero nonzero' same]
  constructor
  case change => exact ⟨change, computed, computed', isFinite_of_toRat? value⟩
  case status =>
    intro threshold
    rw [status_decideGate computed, status_decideGate computed']
  case percent =>
    intro threshold
    rw [change_decideGate computed, change_decideGate computed']
  case ratio => exact ⟨_, _, figures, figures', ratios, isFinite_of_toRat? (toRat?_ratio nonzero _)⟩
  case latency =>
    rintro a b a' b' rfl rfl rfl rfl
    change (Metric.ofFigures? _ _).map Metric.ratio = (Metric.ofFigures? _ _).map Metric.ratio
    rw [figures, figures', Option.map_some, Option.map_some, ratios]

theorem decides_by_proportion_ten_thirds :
    (3 : UInt64) ≠ 0 ∧ (2702159776422297 : UInt64) ≠ 0 ∧
      (2702159776422297 : UInt64).toNat ≤ 2 ^ 53 ∧ (9007199254740990 : UInt64).toNat ≤ 2 ^ 53 ∧
      10 * 2702159776422297 = 9007199254740990 * 3 ∧
      DecidedAlike 3 10 2702159776422297 9007199254740990 := by
  have nonzero : (3 : UInt64) ≠ 0 := by decide
  have nonzero' : (2702159776422297 : UInt64) ≠ 0 := by decide
  have old' : (2702159776422297 : UInt64).toNat ≤ 2 ^ 53 := by decide
  have new' : (9007199254740990 : UInt64).toNat ≤ 2 ^ 53 := by decide
  refine ⟨nonzero, nonzero', old', new', by decide, ?_⟩
  exact decides_by_proportion nonzero nonzero' (by decide) (by decide) old' new' (by decide)

end LatencyGate
