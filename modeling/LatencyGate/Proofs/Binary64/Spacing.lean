import Mathlib
import LatencyGate.Proofs.Binary64.Values

namespace LatencyGate.Binary64

/-- A significand may also reach the next power of two, which has the rank that follows. -/
theorem magnitude_add {unit s : Nat} (le : s ≤ 2 * leadingBit)
    (normal : unit = 0 ∨ leadingBit ≤ s) :
    magnitude (unit * leadingBit + s) = s * 2 ^ ((unit : Int) - 1074) := by
  rw [magnitude_eq]
  rcases le.lt_or_eq with less | rfl
  · have significand_eq : significand (unit * leadingBit + s) = s := by
      unfold significand leadingBit at *
      split <;> omega
    have exponent_eq : exponent (unit * leadingBit + s) = (unit : Int) - 1074 := by
      unfold exponent leadingBit at *
      split <;> omega
    rw [significand_eq, exponent_eq]
  · have significand_eq : significand (unit * leadingBit + 2 * leadingBit) = leadingBit := by
      unfold significand leadingBit
      split <;> omega
    have exponent_eq :
        exponent (unit * leadingBit + 2 * leadingBit) = ((unit : Int) - 1074) + 1 := by
      unfold exponent leadingBit
      split <;> omega
    rw [significand_eq, exponent_eq, zpow_add₀ two_ne_zero]
    push_cast
    ring

theorem magnitude_succ (rank : Nat) :
    magnitude (rank + 1) = magnitude rank + 2 ^ exponent rank := by
  obtain ⟨unit, unit_eq⟩ : ∃ unit : Nat, exponent rank = (unit : Int) - 1074 := by
    refine ⟨(exponent rank + 1074).toNat, ?_⟩
    unfold exponent leadingBit
    split <;> omega
  have place : rank = unit * leadingBit + significand rank := by
    unfold exponent significand leadingBit at *
    split at unit_eq <;> split <;> omega
  have normal : unit = 0 ∨ leadingBit ≤ significand rank := by
    unfold exponent significand leadingBit at *
    split at unit_eq <;> split <;> omega
  have next : magnitude (rank + 1) = ((significand rank + 1 : Nat) : Rat) * 2 ^ exponent rank := by
    have := magnitude_add (s := significand rank + 1) (significand_lt rank)
      (normal.imp_right fun le => le.trans (Nat.le_succ _))
    rwa [← Nat.add_assoc, ← place, ← unit_eq] at this
  rw [next, magnitude_eq]
  push_cast
  ring

theorem add_unit_le_magnitude {m n : Nat} (less : m < n) :
    magnitude m + 2 ^ exponent m ≤ magnitude n := by
  rw [← magnitude_succ]
  exact magnitude_strictMono.monotone less

theorem nearest_eq_scaled {v : Rat} (positive : 0 < v) :
    nearest v = Tie.even.round (scaled v) * 2 ^ unitExponent v := by
  have unit := unitExponent_ge v
  have scaled_round_le : Tie.even.round (scaled v) ≤ (2 * leadingBit : Nat) := by
    rw [← Tie.round_intCast .even (2 * leadingBit : Nat)]
    apply Tie.round_mono
    exact_mod_cast (scaled_lt positive).le
  have le_scaled_round {n : Nat} (le : (n : Rat) ≤ scaled v) :
      (n : Int) ≤ Tie.even.round (scaled v) := by
    rw [← Tie.round_intCast .even n]
    apply Tie.round_mono
    exact_mod_cast le
  have nonneg : 0 ≤ Tie.even.round (scaled v) :=
    le_scaled_round (n := 0) (by exact_mod_cast (scaled_pos positive).le)
  obtain ⟨s, s_eq⟩ := Int.eq_ofNat_of_zero_le nonneg
  obtain ⟨u, u_eq⟩ := Int.eq_ofNat_of_zero_le (by omega : 0 ≤ unitExponent v + 1074)
  have rank : roundRank v = u * leadingBit + s := by
    unfold roundRank
    rw [if_neg positive.ne']
    simp only [power_eq_zpow, Nat.cast_ofNat]
    change (unitExponent v + 1074).toNat * leadingBit + (Tie.even.round (scaled v)).toNat = _
    rw [s_eq, u_eq]
    rfl
  -- Below the normal numbers the exponent does not fall any further.
  have normal : u = 0 ∨ leadingBit ≤ s := by
    rcases unit.eq_or_lt with least | above
    · left
      omega
    · right
      have := le_scaled_round (le_scaled positive above)
      omega
  rw [nearest_of_nonneg positive.le, rank, magnitude_add (by omega) normal, s_eq,
    (by omega : unitExponent v = (u : Int) - 1074)]
  rfl

theorem abs_nearest_sub_le_half_unit {v : Rat} (positive : 0 < v) :
    |nearest v - v| ≤ 1 / 2 * 2 ^ unitExponent v := by
  have unit : (0 : Rat) < 2 ^ unitExponent v := by positivity
  have v_eq : v = scaled v * 2 ^ unitExponent v := by
    rw [scaled, mul_assoc, ← zpow_add₀ two_ne_zero, neg_add_cancel, zpow_zero, mul_one]
  calc |nearest v - v|
    _ = |(Tie.even.round (scaled v) - scaled v) * 2 ^ unitExponent v| := by
        rw [sub_mul, ← v_eq, ← nearest_eq_scaled positive]
    _ = |Tie.even.round (scaled v) - scaled v| * 2 ^ unitExponent v := by
        rw [abs_mul, abs_of_pos unit]
    _ ≤ 1 / 2 * 2 ^ unitExponent v :=
        mul_le_mul_of_nonneg_right (Tie.abs_round_sub_le _ _) unit.le

theorem abs_nearest_sub_le_of_pos {v : Rat} (normal : 2 ^ (-1022 : Int) ≤ v) :
    |nearest v - v| ≤ v / 2 ^ 53 := by
  have positive : 0 < v := lt_of_lt_of_le (by positivity) normal
  have log_ge : -1022 ≤ Int.log 2 v :=
    (Int.zpow_le_iff_le_log one_lt_two positive).1 (by exact_mod_cast normal)
  have log_le : (2 : Rat) ^ Int.log 2 v ≤ v := by
    exact_mod_cast Int.zpow_log_le_self one_lt_two positive
  have unit : unitExponent v = Int.log 2 v - 52 := by
    rw [unitExponent_eq positive]
    omega
  calc |nearest v - v|
    _ ≤ 1 / 2 * 2 ^ unitExponent v := abs_nearest_sub_le_half_unit positive
    _ = 2 ^ Int.log 2 v / 2 ^ 53 := by
        rw [unit, zpow_sub₀ two_ne_zero]
        norm_num
        ring
    _ ≤ v / 2 ^ 53 := by gcongr

theorem abs_nearest_sub_le {v : Rat} (normal : v ≠ 0 → 2 ^ (-1022 : Int) ≤ |v|) :
    |nearest v - v| ≤ |v| / 2 ^ 53 := by
  rcases lt_trichotomy v 0 with negative | rfl | positive
  · have := normal negative.ne
    rw [abs_of_neg negative] at this ⊢
    have error := abs_nearest_sub_le_of_pos this
    rwa [nearest_neg, ← neg_sub', abs_neg] at error
  · simp [nearest_zero]
  · have := normal positive.ne'
    rw [abs_of_pos positive] at this ⊢
    exact abs_nearest_sub_le_of_pos this

theorem nearest_one : nearest 1 = 1 := by
  have := nearest_two_pow 0
  rwa [pow_zero] at this

theorem nearest_intCast {n : Int} (fits : |n| ≤ 2 ^ 53) : nearest n = n := by
  obtain ⟨k, rfl | rfl⟩ := n.eq_nat_or_neg
  · rw [Int.cast_natCast]
    apply nearest_natCast
    rw [abs_of_nonneg (by positivity)] at fits
    exact_mod_cast fits
  · rw [Int.cast_neg, Int.cast_natCast, nearest_neg, nearest_natCast]
    rw [abs_neg, abs_of_nonneg (by positivity)] at fits
    exact_mod_cast fits

theorem exists_nearest_natCast_eq (n : Nat) : ∃ k : Int, nearest n = k := by
  rcases le_or_gt n (2 ^ 53) with fits | beyond
  · exact ⟨n, by rw [nearest_natCast fits]; rfl⟩
  have positive : (0 : Rat) < n := by exact_mod_cast (Nat.zero_le _).trans_lt beyond
  have log_ge : (53 : Int) ≤ Int.log 2 (n : Rat) :=
    (Int.zpow_le_iff_le_log one_lt_two positive).1 (by exact_mod_cast beyond.le)
  have unit := unitExponent_eq positive
  -- From `2^53` on the unit in the last place is a whole number.
  obtain ⟨u, u_eq⟩ := Int.eq_ofNat_of_zero_le (by omega : 0 ≤ unitExponent (n : Rat))
  refine ⟨Tie.even.round (scaled n) * 2 ^ u, ?_⟩
  rw [nearest_eq_scaled positive, u_eq]
  push_cast
  rfl

theorem magnitude_eq_one : magnitude (1023 * leadingBit) = 1 := by
  rw [magnitude_mul_leadingBit (by norm_num)]
  norm_num

theorem nearest_div_lt_one {m n : Nat} (less : m < n) :
    nearest (magnitude m / magnitude n) < 1 := by
  -- The greatest number below one.
  have below : magnitude (1023 * leadingBit - 1) = 1 - 1 / 2 ^ 53 := by
    rw [(by decide : 1023 * leadingBit - 1 = 1021 * leadingBit + (2 * leadingBit - 1)),
      magnitude_add (by decide) (.inr (by decide))]
    norm_num [leadingBit]
  have divisor_pos : 0 < magnitude n := magnitude_pos (Nat.zero_lt_of_lt less)
  have unit : (0 : Rat) < 2 ^ exponent m := by positivity
  have significand_le : (significand m : Rat) ≤ 2 ^ 53 - 1 := by
    have : significand m + 1 ≤ 2 ^ 53 := significand_lt m
    have : ((significand m + 1 : Nat) : Rat) ≤ (2 ^ 53 : Nat) := by exact_mod_cast this
    push_cast at this
    linarith
  have quotient : magnitude m / magnitude n ≤ 1 - 1 / 2 ^ 53 := by
    have apart := add_unit_le_magnitude less
    rw [div_le_iff₀ divisor_pos]
    rw [magnitude_eq] at apart ⊢
    nlinarith
  calc nearest (magnitude m / magnitude n)
    _ ≤ nearest (1 - 1 / 2 ^ 53) := nearest_mono quotient
    _ = 1 - 1 / 2 ^ 53 := by rw [← below, nearest_magnitude]
    _ < 1 := by norm_num

theorem one_lt_nearest {v : Rat} (greater : 1 + 1 / 2 ^ 53 < v) : 1 < nearest v := by
  have middle_pos : (0 : Rat) < 1 + 1 / 2 ^ 53 := by positivity
  have log_eq : Int.log 2 (1 + 1 / 2 ^ 53 : Rat) = 0 := by
    have low := (Int.zpow_le_iff_le_log (b := 2) (x := 0) one_lt_two middle_pos).1 (by norm_num)
    have high := (Int.lt_zpow_iff_log_lt (b := 2) (x := 1) one_lt_two middle_pos).1 (by norm_num)
    omega
  have unit : unitExponent (1 + 1 / 2 ^ 53) = -52 := by
    rw [unitExponent_eq middle_pos, log_eq]
    rfl
  have middle : position (1 + 1 / 2 ^ 53) = (1023 * leadingBit : Nat) + 1 / 2 := by
    rw [position, scaled, unit]
    norm_num [leadingBit]
  have positive : 0 < v := middle_pos.trans greater
  have beyond : ((1023 * leadingBit : Nat) : Rat) < roundRank v := by
    have placed := position_lt middle_pos greater
    have error := (abs_le.1 (Tie.abs_round_sub_le .even (position v))).1
    rw [← roundRank_eq positive] at error
    push_cast at error
    linarith
  rw [nearest_of_nonneg positive.le, ← magnitude_eq_one]
  apply magnitude_strictMono
  exact_mod_cast beyond

theorem one_lt_nearest_div {m n : Nat} (positive : 0 < n) (greater : n < m) :
    1 < nearest (magnitude m / magnitude n) := by
  have divisor_pos := magnitude_pos positive
  have unit : (0 : Rat) < 2 ^ exponent n := by positivity
  have significand_lt : (significand n : Rat) < 2 ^ 53 := by
    exact_mod_cast significand_lt n
  apply one_lt_nearest
  have apart := add_unit_le_magnitude greater
  rw [lt_div_iff₀ divisor_pos]
  rw [magnitude_eq n] at apart ⊢
  nlinarith

theorem nearest_div_lt_one_iff {m n : Nat} (positive : 0 < n) :
    nearest (magnitude m / magnitude n) < 1 ↔ m < n := by
  refine ⟨fun below => ?_, nearest_div_lt_one⟩
  rcases lt_trichotomy m n with less | rfl | greater
  · exact less
  · rw [div_self (magnitude_pos positive).ne', nearest_one] at below
    exact absurd below (lt_irrefl _)
  · exact absurd below (one_lt_nearest_div positive greater).not_gt

theorem one_lt_nearest_div_iff {m n : Nat} (positive : 0 < n) :
    1 < nearest (magnitude m / magnitude n) ↔ n < m := by
  refine ⟨fun above => ?_, one_lt_nearest_div positive⟩
  rcases lt_trichotomy m n with less | rfl | greater
  · exact absurd above (nearest_div_lt_one less).not_gt
  · rw [div_self (magnitude_pos positive).ne', nearest_one] at above
    exact absurd above (lt_irrefl _)
  · exact greater

end LatencyGate.Binary64
