import Mathlib
import LatencyGate.Proofs.Gate.Monotonicity
import LatencyGate.Proofs.Gate.Sign

namespace LatencyGate
open Binary64

variable {reference target : UInt64}

structure SameOrder (x y x' y' : Binary64) : Prop where
  less : x.lt y = x'.lt y'
  equal : x.equals y = x'.equals y'
  greater : y.lt x = y'.lt x'

theorem sameOrder_of_values {x y x' y' : Binary64} {v w v' w' : Rat} (hx : x.toRat? = some v)
    (hy : y.toRat? = some w) (hx' : x'.toRat? = some v') (hy' : y'.toRat? = some w')
    (less : v < w ↔ v' < w') (greater : w < v ↔ w' < v') : SameOrder x y x' y' := by
  constructor <;> rw [Bool.eq_iff_iff]
  · rw [lt_iff hx hy, lt_iff hx' hy', less]
  · rw [equals_iff hx hy, equals_iff hx' hy', eq_iff_of_lt_iff less greater]
  · rw [lt_iff hy hx, lt_iff hy' hx', greater]

theorem toRat?_one : (ofNat 1).toRat? = some 1 := by
  rw [toRat?_ofNat_of_le (by norm_num), Nat.cast_one]

theorem roundedRatio_lt_one_iff (nonzero : reference ≠ 0) (target : UInt64) :
    roundedRatio reference target < 1 ↔ nearest target.toNat < nearest reference.toNat := by
  obtain ⟨m, -, m_eq⟩ := exists_rank_ofNat target
  obtain ⟨n, positive, -, n_eq⟩ := exists_pos_rank_ofNat nonzero
  rw [roundedRatio, ← m_eq, ← n_eq, magnitude_strictMono.lt_iff_lt]
  exact nearest_div_lt_one_iff positive

theorem one_lt_roundedRatio_iff (nonzero : reference ≠ 0) (target : UInt64) :
    1 < roundedRatio reference target ↔ nearest reference.toNat < nearest target.toNat := by
  obtain ⟨m, -, m_eq⟩ := exists_rank_ofNat target
  obtain ⟨n, positive, -, n_eq⟩ := exists_pos_rank_ofNat nonzero
  rw [roundedRatio, ← m_eq, ← n_eq, magnitude_strictMono.lt_iff_lt]
  exact one_lt_nearest_div_iff positive

theorem nearest_toNat_lt_iff (small : reference.toNat ≤ 2 ^ 53) (small' : target.toNat ≤ 2 ^ 53) :
    nearest reference.toNat < nearest target.toNat ↔ reference < target := by
  rw [nearest_natCast small, nearest_natCast small', UInt64.lt_iff_toNat_lt]
  exact_mod_cast Iff.rfl

structure DirectionsAgree (reference target : UInt64) (change : Binary64) (m : Metric) : Prop where
  change : SameOrder change zero (.ofNat target.toNat) (.ofNat reference.toNat)
  ratio : SameOrder m.ratio (.ofNat 1) (.ofNat target.toNat) (.ofNat reference.toNat)
  difference : m.difference.toInt =
    max (-2 ^ 63) (min ((target.toNat : Int) - reference.toNat) (2 ^ 63 - 1))
  falls : m.difference < 0 → m.ratio.le (.ofNat 1) = true
  grows : 0 < m.difference → (Binary64.ofNat 1).le m.ratio = true
  stays : m.difference = 0 → m.ratio.equals (.ofNat 1) = true
  small : reference.toNat ≤ 2 ^ 53 → target.toNat ≤ 2 ^ 53 →
    (m.difference < 0 ↔ m.ratio.lt (.ofNat 1) = true) ∧
    (0 < m.difference ↔ (Binary64.ofNat 1).lt m.ratio = true) ∧
    ∀ threshold, Binary64.toRat? threshold = some 0 →
      ((decideGate threshold reference target).Fails ↔ reference < target)

theorem directions_agree (nonzero : reference ≠ 0) (target : UInt64) :
    ∃ change m, changePercent reference target = some change ∧
      Metric.ofFigures? reference target = some m ∧
      (∀ a b : Report, a.p99 = reference → b.p99 = target →
        (Comparison.ofReports a b).latency = some m) ∧
      DirectionsAgree reference target change m := by
  obtain ⟨change, computed, value⟩ := changePercent_eq_some nonzero target
  have ratio := toRat?_ratio nonzero target
  have new := toRat?_ofNat_toNat target
  have old := toRat?_ofNat_toNat reference
  have below := roundedRatio_lt_one_iff nonzero target
  have above := one_lt_roundedRatio_iff nonzero target
  refine ⟨change, _, computed, Metric.ofFigures?_eq_some nonzero target, ?_, ?_⟩
  · rintro a b rfl rfl
    exact Metric.ofFigures?_eq_some nonzero _
  constructor
  case change =>
    exact sameOrder_of_values value toRat?_zero new old (roundedChange_neg_iff nonzero)
      (roundedChange_pos_iff nonzero)
  case ratio => exact sameOrder_of_values ratio toRat?_one new old below above
  case difference => exact toInt_clampedDifference target reference
  case falls =>
    intro negative
    -- The conversion may make the two figures equal, so the ratio need not be below one.
    apply le_of_value_le ratio toRat?_one
    have less := clampedDifference_neg_iff.1 negative
    rw [← not_lt, above, not_lt]
    exact nearest_mono (by exact_mod_cast (UInt64.lt_iff_toNat_lt.1 less).le)
  case grows =>
    intro positive
    apply le_of_value_le toRat?_one ratio
    have greater := clampedDifference_pos_iff.1 positive
    rw [← not_lt, below, not_lt]
    exact nearest_mono (by exact_mod_cast (UInt64.lt_iff_toNat_lt.1 greater).le)
  case stays =>
    intro unchanged
    dsimp only at unchanged ⊢
    obtain rfl := clampedDifference_eq_zero_iff.1 unchanged
    rw [equals_iff ratio toRat?_one, roundedRatio,
      div_self (nearest_toNat_pos nonzero).ne', nearest_one]
  case small =>
    intro smallReference smallTarget
    dsimp only
    refine ⟨?_, ?_, fun threshold zero => ?_⟩
    · rw [clampedDifference_neg_iff, lt_iff ratio toRat?_one, below,
        nearest_toNat_lt_iff smallTarget smallReference]
    · rw [clampedDifference_pos_iff, lt_iff toRat?_one ratio, above,
        nearest_toNat_lt_iff smallReference smallTarget]
    · rw [decideGate_fails_iff computed, lt_iff zero value, roundedChange_pos_iff nonzero,
        nearest_toNat_lt_iff smallReference smallTarget]

theorem directions_agree_extremes :
    (9007199254740992 : UInt64) ≠ 0 ∧ (1 : UInt64) ≠ 0 ∧
      (∃ m, Metric.ofFigures? 9007199254740992 9007199254740993 = some m ∧ m.difference.toInt = 1 ∧
        m.ratio.equals (.ofNat 1) = true) ∧
      ∃ m, Metric.ofFigures? 1 18446744073709551615 = some m ∧
        m.difference.toInt = 9223372036854775807 ∧ (Binary64.ofNat 1).lt m.ratio = true := by
  have nonzero : (9007199254740992 : UInt64) ≠ 0 := by decide
  have nonzero' : (1 : UInt64) ≠ 0 := by decide
  obtain ⟨_, m, -, figures, -, agree⟩ := directions_agree nonzero 9007199254740993
  obtain ⟨_, m', -, figures', -, agree'⟩ := directions_agree nonzero' 18446744073709551615
  refine ⟨nonzero, nonzero', ⟨m, figures, ?_, ?_⟩, ⟨m', figures', ?_, ?_⟩⟩
  · rw [agree.difference]
    decide
  · rw [agree.ratio.equal]
    decide +kernel
  · rw [agree'.difference]
    decide
  · rw [agree'.ratio.greater]
    decide +kernel

end LatencyGate
