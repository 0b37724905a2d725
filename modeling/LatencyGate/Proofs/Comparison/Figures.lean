import Mathlib
import LatencyGate.Comparison
import LatencyGate.Proofs.Gate.Change

namespace LatencyGate
open Binary64

variable {reference target : UInt64}

theorem exists_rank_ofNat (n : UInt64) :
    ∃ rank, ofNat n.toNat = .finite false rank ∧ magnitude rank = nearest n.toNat := by
  have bound : (n.toNat : Rat) ≤ 2 ^ 64 := by exact_mod_cast n.toNat_lt.le
  exact round_eq_finite false (by positivity) (le_largest_of_le bound (by norm_num))

theorem exists_pos_rank_ofNat {n : UInt64} (nonzero : n ≠ 0) :
    ∃ rank : Fin infiniteRank, 0 < rank.val ∧ ofNat n.toNat = .finite false rank ∧
      magnitude rank = nearest n.toNat := by
  obtain ⟨rank, converted, rank_eq⟩ := exists_rank_ofNat n
  refine ⟨rank, Nat.pos_of_ne_zero ?_, converted, rank_eq⟩
  rw [ne_eq, ← magnitude_eq_zero, rank_eq]
  exact (nearest_toNat_pos nonzero).ne'

def roundedRatio (reference target : UInt64) : Rat :=
  nearest (nearest target.toNat / nearest reference.toNat)

theorem roundedRatio_mono {target target' : UInt64} (le : target ≤ target') :
    roundedRatio reference target ≤ roundedRatio reference target' := by
  have figures : nearest target.toNat ≤ nearest target'.toNat :=
    nearest_mono (by exact_mod_cast le)
  exact nearest_mono (div_le_div_of_nonneg_right figures (nearest_nonneg (by positivity)))

theorem ratio_eq_round (nonzero : reference ≠ 0) (target : UInt64) :
    (ofNat target.toNat).div (ofNat reference.toNat) =
      round false (nearest target.toNat / nearest reference.toNat) := by
  obtain ⟨m, target_eq, m_eq⟩ := exists_rank_ofNat target
  obtain ⟨n, positive, reference_eq, n_eq⟩ := exists_pos_rank_ofNat nonzero
  rw [target_eq, reference_eq, ← m_eq, ← n_eq, div, if_neg positive.ne']
  rfl

theorem div_nearest_nonneg (reference target : UInt64) :
    0 ≤ nearest target.toNat / nearest reference.toNat :=
  div_nonneg (nearest_nonneg (by positivity)) (nearest_nonneg (by positivity))

theorem div_nearest_le (nonzero : reference ≠ 0) (target : UInt64) :
    nearest target.toNat / nearest reference.toNat ≤ 2 ^ 64 :=
  (div_le_self (nearest_nonneg (by positivity)) (one_le_nearest nonzero)).trans
    (nearest_toNat_le target)

theorem ratio_eq_finite (nonzero : reference ≠ 0) (target : UInt64) :
    ∃ rank, (ofNat target.toNat).div (ofNat reference.toNat) = .finite false rank ∧
      magnitude rank = roundedRatio reference target := by
  rw [ratio_eq_round nonzero]
  exact round_eq_finite false (div_nearest_nonneg reference target)
    (le_largest_of_le (div_nearest_le nonzero target) (by norm_num))

theorem toRat?_ratio (nonzero : reference ≠ 0) (target : UInt64) :
    ((ofNat target.toNat).div (ofNat reference.toNat)).toRat? =
      some (roundedRatio reference target) := by
  obtain ⟨rank, computed, rank_eq⟩ := ratio_eq_finite nonzero target
  rw [computed, ← rank_eq]
  rfl

theorem Metric.ofFigures?_eq_some (nonzero : reference ≠ 0) (target : UInt64) :
    ofFigures? reference target = some ⟨reference, target,
      (ofNat target.toNat).div (ofNat reference.toNat), clampedDifference target reference⟩ :=
  if_neg nonzero

theorem toInt_clampedDifference (target reference : UInt64) :
    (clampedDifference target reference).toInt =
      max (-2 ^ 63) (min ((target.toNat : Int) - reference.toNat) (2 ^ 63 - 1)) := by
  have least : Int64.minValue.toInt = -2 ^ 63 := by decide
  have greatest : Int64.maxValue.toInt = 2 ^ 63 - 1 := by decide
  unfold clampedDifference
  dsimp only
  rw [least, greatest]
  split
  · omega
  split
  · omega
  · rw [Int64.toInt_ofInt_of_le (by omega) (by omega)]
    omega

theorem clampedDifference_neg_iff :
    clampedDifference target reference < 0 ↔ target < reference := by
  rw [Int64.lt_iff_toInt_lt, toInt_clampedDifference, Int64.toInt_zero, UInt64.lt_iff_toNat_lt]
  omega

theorem clampedDifference_pos_iff :
    0 < clampedDifference target reference ↔ reference < target := by
  rw [Int64.lt_iff_toInt_lt, toInt_clampedDifference, Int64.toInt_zero, UInt64.lt_iff_toNat_lt]
  omega

theorem clampedDifference_eq_zero_iff :
    clampedDifference target reference = 0 ↔ target = reference := by
  rw [← Int64.toInt_inj, toInt_clampedDifference, Int64.toInt_zero, ← UInt64.toNat_inj]
  omega

end LatencyGate
