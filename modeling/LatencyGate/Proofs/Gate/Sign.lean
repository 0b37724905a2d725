import Mathlib
import LatencyGate.Proofs.Binary64.Spacing
import LatencyGate.Proofs.Comparison.Figures

namespace LatencyGate
open Binary64

variable {baseline current : UInt64}

def percentOf (old difference : Rat) : Rat := nearest (nearest (nearest difference / old) * 100)

theorem percentOf_zero (old : Rat) : percentOf old 0 = 0 := by
  simp only [percentOf, nearest_zero, zero_div, zero_mul]

theorem percentOf_neg (old difference : Rat) :
    percentOf old (-difference) = -percentOf old difference := by
  simp only [percentOf, nearest_neg, neg_div, neg_mul]

theorem percentOf_pos {old difference : Rat} (old_pos : 0 < old) (old_le : old ≤ 2 ^ 64)
    (whole : 1 ≤ difference) : 0 < percentOf old difference := by
  have part : (2 : Rat) ^ (-64 : Int) = 1 / 2 ^ 64 := by norm_num
  have rounded : 1 ≤ nearest difference := by
    rw [← nearest_one]
    exact nearest_mono whole
  have quotient : 2 ^ (-64 : Int) ≤ nearest difference / old := by
    rw [part]
    exact div_le_div₀ (zero_le_one.trans rounded) rounded old_pos old_le
  have product : 2 ^ (-64 : Int) ≤ nearest (nearest difference / old) * 100 := by
    have := nearest_mono quotient
    rw [nearest_two_zpow (by norm_num)] at this
    have unit : (0 : Rat) < 2 ^ (-64 : Int) := by positivity
    linarith
  calc (0 : Rat) < 2 ^ (-64 : Int) := by positivity
    _ = nearest (2 ^ (-64 : Int)) := (nearest_two_zpow (by norm_num)).symm
    _ ≤ percentOf old difference := nearest_mono product

theorem roundedChange_eq (baseline current : UInt64) :
    roundedChange baseline current =
      percentOf (nearest baseline.toNat) (nearest current.toNat - nearest baseline.toNat) :=
  rfl

theorem one_le_nearest_sub {m n : Nat} (less : nearest m < nearest n) :
    1 ≤ nearest n - nearest m := by
  obtain ⟨k, k_eq⟩ := exists_nearest_natCast_eq m
  obtain ⟨l, l_eq⟩ := exists_nearest_natCast_eq n
  rw [k_eq, l_eq] at less ⊢
  have : k + 1 ≤ l := by exact_mod_cast less
  have : (k : Rat) + 1 ≤ l := by exact_mod_cast this
  linarith

theorem roundedChange_pos (nonzero : baseline ≠ 0)
    (greater : nearest baseline.toNat < nearest current.toNat) :
    0 < roundedChange baseline current :=
  percentOf_pos (nearest_toNat_pos nonzero) (nearest_toNat_le baseline) (one_le_nearest_sub greater)

theorem roundedChange_neg (nonzero : baseline ≠ 0)
    (less : nearest current.toNat < nearest baseline.toNat) :
    roundedChange baseline current < 0 := by
  have := percentOf_pos (nearest_toNat_pos nonzero) (nearest_toNat_le baseline)
    (one_le_nearest_sub less)
  rw [roundedChange_eq, ← neg_sub, percentOf_neg]
  exact neg_neg_of_pos this

theorem roundedChange_eq_zero (same : nearest current.toNat = nearest baseline.toNat) :
    roundedChange baseline current = 0 := by
  rw [roundedChange_eq, same, sub_self, percentOf_zero]

theorem roundedChange_pos_iff (nonzero : baseline ≠ 0) :
    0 < roundedChange baseline current ↔ nearest baseline.toNat < nearest current.toNat := by
  refine ⟨fun positive => ?_, roundedChange_pos nonzero⟩
  by_contra! le
  rcases le.lt_or_eq with less | same
  · exact positive.not_gt (roundedChange_neg nonzero less)
  · exact positive.ne' (roundedChange_eq_zero same)

theorem roundedChange_neg_iff (nonzero : baseline ≠ 0) :
    roundedChange baseline current < 0 ↔ nearest current.toNat < nearest baseline.toNat := by
  refine ⟨fun negative => ?_, roundedChange_neg nonzero⟩
  by_contra! le
  rcases le.lt_or_eq with greater | same
  · exact negative.not_gt (roundedChange_pos nonzero greater)
  · exact negative.ne (roundedChange_eq_zero same.symm)

theorem roundedChange_ne_zero (nonzero : baseline ≠ 0)
    (differ : nearest current.toNat ≠ nearest baseline.toNat) :
    roundedChange baseline current ≠ 0 := by
  rcases differ.lt_or_gt with less | greater
  · exact (roundedChange_neg nonzero less).ne
  · exact (roundedChange_pos nonzero greater).ne'

theorem round_false_zero : round false 0 = zero := rfl

theorem changePercent_eq_zero (nonzero : baseline ≠ 0)
    (same : nearest current.toNat = nearest baseline.toNat) :
    changePercent baseline current = some zero := by
  obtain ⟨m, new_eq, m_eq⟩ := exists_rank_ofNat current
  obtain ⟨n, positive, old_eq, n_eq⟩ := exists_pos_rank_ofNat nonzero
  have ranks : m = n := by
    rw [← m_eq, ← n_eq] at same
    exact Fin.ext (magnitude_strictMono.injective same)
  have difference : (Binary64.finite false n).sub (.finite false n) = zero := by
    simp [sub, round_false_zero]
  have quotient : zero.div (.finite false n) = zero := by
    simp [zero, div, positive.ne', magnitude_zero]
    rfl
  have product : zero.mul (ofNat 100) = zero := by decide +kernel
  unfold changePercent
  rw [if_neg nonzero]
  dsimp only
  rw [new_eq, old_eq, ranks, difference, quotient, product]

theorem changePercent_eq_finite (nonzero : baseline ≠ 0) (current : UInt64) :
    ∃ rank, changePercent baseline current =
        some (.finite (decide (roundedChange baseline current < 0)) rank) ∧
      signedMagnitude (decide (roundedChange baseline current < 0)) rank =
        roundedChange baseline current := by
  by_cases same : nearest current.toNat = nearest baseline.toNat
  · rw [roundedChange_eq_zero same]
    exact ⟨⟨0, by decide⟩, changePercent_eq_zero nonzero same, magnitude_zero⟩
  · obtain ⟨change, computed, value⟩ := changePercent_eq_some nonzero current
    obtain ⟨rank, rfl, -⟩ := eq_finite_of_toRat? (roundedChange_ne_zero nonzero same) value
    exact ⟨rank, computed, Option.some.inj value⟩

end LatencyGate
