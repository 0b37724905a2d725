import Mathlib
import LatencyGate.Proofs.Binary64.Values
import LatencyGate.Decimal

namespace LatencyGate

namespace Binary64

theorem infiniteRank_le_roundRank {x : Rat} (large : 2 ^ 1024 ≤ x) :
    infiniteRank ≤ roundRank x := by
  have bound : magnitude infiniteRank = 2 ^ 1024 := by
    have := magnitude_mul_leadingBit (m := 2047) (by norm_num)
    rw [(by decide : 2047 * leadingBit = infiniteRank)] at this
    rw [this, ← zpow_natCast]
    norm_num
  have := roundRank_mono (magnitude_nonneg infiniteRank) (bound.trans_le large)
  rwa [roundRank_magnitude] at this

theorem roundRank_eq_zero {x : Rat} (nonneg : 0 ≤ x) (small : x < 2 ^ (-1075 : Int)) :
    roundRank x = 0 := by
  rcases nonneg.eq_or_lt with rfl | positive
  · exact roundRank_zero
  have log_lt := (Int.lt_zpow_iff_log_lt (b := 2) one_lt_two positive).1 (by exact_mod_cast small)
  have unit : unitExponent x = -1074 := by
    rw [unitExponent_eq positive]
    omega
  have placed : position x = x * 2 ^ (1074 : Int) := by
    simp [position, scaled, unit]
  have place_lt : position x < 1 / 2 := by
    rw [placed]
    calc x * 2 ^ (1074 : Int) < 2 ^ (-1075 : Int) * 2 ^ (1074 : Int) := by gcongr
      _ = 1 / 2 := by rw [← zpow_add₀ two_ne_zero]; norm_num
  have place_pos := position_pos positive
  have near := abs_le.1 (Tie.abs_round_sub_le .even (position x))
  rw [← roundRank_eq positive] at near
  have : ((roundRank x : Int) : Rat) < 1 := by linarith
  exact Nat.lt_one_iff.1 (by exact_mod_cast this)

end Binary64

theorem lt_pow_length_digits (n : Nat) : n < 10 ^ (digits n).length :=
  (Nat.length_toDigits_le_iff (by norm_num) Nat.length_toDigits_pos).1 le_rfl

theorem pow_length_digits_le {n : Nat} (positive : 0 < n) :
    10 ^ ((digits n).length - 1) ≤ n := by
  by_contra! less
  rcases Nat.eq_zero_or_pos ((digits n).length - 1) with zero | longer
  · rw [zero, pow_zero] at less
    omega
  · have := (Nat.length_toDigits_le_iff (b := 10) (by norm_num) longer).2 less
    unfold digits at this longer
    omega

namespace Decimal

variable (d : Decimal)

theorem value_eq : d.value = d.coefficient * (10 : Rat) ^ d.exponent := by
  rw [value, power_eq_zpow]
  norm_num

theorem value_nonneg : 0 ≤ d.value := by
  rw [value_eq]
  positivity

theorem value_lt : d.value < (10 : Rat) ^ d.point := by
  have length : (d.coefficient : Rat) < 10 ^ ((digits d.coefficient).length : Int) := by
    exact_mod_cast lt_pow_length_digits d.coefficient
  rw [value_eq, point, zpow_add₀ (by norm_num)]
  gcongr

theorem le_value {d : Decimal} (nonzero : d.coefficient ≠ 0) :
    (10 : Rat) ^ (d.point - 1) ≤ d.value := by
  have least := pow_length_digits_le (Nat.pos_of_ne_zero nonzero)
  have length : (10 : Rat) ^ (((digits d.coefficient).length - 1 : Nat) : Int) ≤ d.coefficient := by
    exact_mod_cast least
  have digits_pos : 0 < (digits d.coefficient).length :=
    List.length_pos_iff.2 (digits_ne_nil d.coefficient)
  have split : d.point - 1 = (((digits d.coefficient).length - 1 : Nat) : Int) + d.exponent := by
    unfold point
    omega
  rw [value_eq, split, zpow_add₀ (by norm_num)]
  gcongr

theorem two_pow_le_ten_pow : (2 : Nat) ^ 1024 ≤ 10 ^ 310 := by decide +kernel

theorem two_pow_le_ten_pow' : (2 : Nat) ^ 1075 ≤ 10 ^ 331 := by decide +kernel

/-- A decimal gives the number nearest to its value, whatever its point. -/
theorem toBinary64_eq_round (negative : Bool) : d.toBinary64 negative = .round negative d.value := by
  unfold toBinary64
  split
  · rename_i zero
    rw [value_eq, zero, Nat.cast_zero, zero_mul]
  rename_i nonzero
  split
  · rename_i great
    have large : (2 : Rat) ^ 1024 ≤ d.value :=
      calc (2 : Rat) ^ 1024 ≤ 10 ^ (310 : Int) := by exact_mod_cast two_pow_le_ten_pow
        _ ≤ 10 ^ (d.point - 1) := zpow_le_zpow_right₀ (by norm_num) (by omega)
        _ ≤ d.value := le_value nonzero
    rw [Binary64.round, dif_neg (not_lt.2 (Binary64.infiniteRank_le_roundRank large))]
  split
  · rename_i small
    have vanishing : d.value < 2 ^ (-1075 : Int) :=
      calc d.value < 10 ^ d.point := value_lt d
        _ ≤ 10 ^ (-331 : Int) := zpow_le_zpow_right₀ (by norm_num) (by omega)
        _ ≤ 2 ^ (-1075 : Int) := by
          rw [zpow_neg, zpow_neg]
          exact inv_anti₀ (by positivity) (by exact_mod_cast two_pow_le_ten_pow')
    have rank : Binary64.roundRank d.value = Binary64.roundRank 0 :=
      Binary64.roundRank_eq_zero (value_nonneg d) vanishing
    simp only [Binary64.round, rank]
  · rfl

end Decimal

end LatencyGate
