import Mathlib
import LatencyGate.Binary64
import LatencyGate.Proofs.Rational

/-!
# Rounding on the line of ranks

`position` places every positive rational on the line on which the magnitude with rank `r` stands
at `r`: it is linear between neighbouring powers of two and strictly increasing. `roundRank` is the
nearest integer to the position, ties to even, so rounding is monotone and leaves magnitudes alone.
-/

namespace LatencyGate.Binary64

/-! ## Exponents -/

theorem log2_bounds {n : Nat} (positive : 0 < n) :
    (2 : Rat) ^ (n.log2 : Int) ≤ n ∧ (n : Rat) < 2 ^ ((n.log2 : Int) + 1) := by
  constructor
  · exact_mod_cast Nat.log2_self_le positive.ne'
  · exact_mod_cast Nat.lt_log2_self (n := n)

theorem log2Floor_eq_log {x : Rat} (positive : 0 < x) : log2Floor x = Int.log 2 x := by
  have num_pos : 0 < x.num := Rat.num_pos.2 positive
  obtain ⟨num_low, num_high⟩ := log2_bounds (n := x.num.natAbs) (by omega)
  obtain ⟨den_low, den_high⟩ := log2_bounds x.den_pos
  have num_cast : ((x.num.natAbs : Nat) : Rat) = x.num := by
    rw [Nat.cast_natAbs, abs_of_pos num_pos]
  rw [num_cast] at num_low num_high
  have den_pos : (0 : Rat) < x.den := by exact_mod_cast x.den_pos
  have quotient : x * x.den = x.num := Rat.mul_den_eq_num x
  set p : Int := (x.num.natAbs.log2 : Int) with hp
  set q : Int := (x.den.log2 : Int) with hq
  -- The lengths of numerator and denominator locate `x` between `2^(p-q-1)` and `2^(p-q+1)`.
  have low : (2 : Rat) ^ (p - q - 1) < x := by
    have split : (2 : Rat) ^ p = 2 ^ (p - q - 1) * 2 ^ (q + 1) := by
      rw [← zpow_add₀ two_ne_zero]; congr 1; ring
    have scale : (0 : Rat) < 2 ^ (p - q - 1) := by positivity
    by_contra! le
    have : x * x.den < 2 ^ (p - q - 1) * 2 ^ (q + 1) := by nlinarith
    linarith
  have high : x < 2 ^ (p - q + 1) := by
    have split : (2 : Rat) ^ (p + 1) = 2 ^ (p - q + 1) * 2 ^ q := by
      rw [← zpow_add₀ two_ne_zero]; congr 1; ring
    have scale : (0 : Rat) < 2 ^ (p - q + 1) := by positivity
    by_contra! le
    have : (2 : Rat) ^ (p - q + 1) * 2 ^ q ≤ x * x.den := by nlinarith
    linarith
  have log_low : p - q - 1 ≤ Int.log 2 x :=
    (Int.zpow_le_iff_le_log one_lt_two positive).1 (by exact_mod_cast low.le)
  have log_high : Int.log 2 x < p - q + 1 :=
    (Int.lt_zpow_iff_log_lt one_lt_two positive).1 (by exact_mod_cast high)
  unfold log2Floor
  change (if power 2 (p - q) ≤ x then p - q else p - q - 1) = Int.log 2 x
  rw [power_eq_zpow]
  split
  · rename_i le
    have := (Int.zpow_le_iff_le_log one_lt_two positive).1 le
    omega
  · rename_i lt
    have := (Int.lt_zpow_iff_log_lt one_lt_two positive).1 (not_le.1 lt)
    omega

theorem unitExponent_eq {x : Rat} (positive : 0 < x) :
    unitExponent x = max (Int.log 2 x - 52) (-1074) := by
  unfold unitExponent
  rw [log2Floor_eq_log positive]
  dsimp only
  split <;> omega

theorem unitExponent_ge (x : Rat) : -1074 ≤ unitExponent x := by
  unfold unitExponent
  dsimp only
  split <;> omega

theorem unitExponent_mono {x y : Rat} (positive : 0 < x) (le : x ≤ y) :
    unitExponent x ≤ unitExponent y := by
  rw [unitExponent_eq positive, unitExponent_eq (positive.trans_le le)]
  have := Int.log_mono_right (b := 2) positive le
  omega

/-! ## Positions -/

def scaled (x : Rat) : Rat := x * 2 ^ (-unitExponent x)

/-- Where a positive number stands on the line of ranks. -/
def position (x : Rat) : Rat := ((unitExponent x + 1074 : Int) : Rat) * leadingBit + scaled x

theorem scaled_pos {x : Rat} (positive : 0 < x) : 0 < scaled x := by
  unfold scaled
  positivity

theorem scaled_lt {x : Rat} (positive : 0 < x) : scaled x < 2 * leadingBit := by
  have log_lt : Int.log 2 x < unitExponent x + 53 := by
    rw [unitExponent_eq positive]; omega
  have lt := (Int.lt_zpow_iff_log_lt (b := 2) one_lt_two positive).2 log_lt
  have unit : (0 : Rat) < 2 ^ unitExponent x := by positivity
  push_cast at lt
  rw [zpow_add₀ two_ne_zero] at lt
  unfold scaled
  rw [zpow_neg, mul_inv_lt_iff₀ unit]
  calc x < 2 ^ unitExponent x * 2 ^ (53 : Int) := lt
    _ = 2 * (leadingBit : Nat) * 2 ^ unitExponent x := by norm_num [leadingBit]; ring

theorem le_scaled {x : Rat} (positive : 0 < x) (normal : -1074 < unitExponent x) :
    (leadingBit : Rat) ≤ scaled x := by
  have le_log : unitExponent x + 52 ≤ Int.log 2 x := by
    rw [unitExponent_eq positive] at normal ⊢; omega
  have le := (Int.zpow_le_iff_le_log (b := 2) one_lt_two positive).2 le_log
  have unit : (0 : Rat) < 2 ^ unitExponent x := by positivity
  push_cast at le
  rw [zpow_add₀ two_ne_zero] at le
  unfold scaled
  rw [zpow_neg, le_mul_inv_iff₀ unit]
  calc ((leadingBit : Nat) : Rat) * 2 ^ unitExponent x = 2 ^ unitExponent x * 2 ^ (52 : Int) := by
        norm_num [leadingBit]; ring
    _ ≤ x := le

theorem position_pos {x : Rat} (positive : 0 < x) : 0 < position x := by
  have unit : (0 : Rat) ≤ (unitExponent x + 1074 : Int) := by
    exact_mod_cast (by have := unitExponent_ge x; omega : 0 ≤ unitExponent x + 1074)
  have := scaled_pos positive
  unfold position
  positivity

theorem position_lt {x y : Rat} (positive : 0 < x) (lt : x < y) : position x < position y := by
  have units := unitExponent_mono positive lt.le
  unfold position
  rcases units.lt_or_eq with apart | same
  · -- A greater unit starts where the smaller one ends.
    have low := scaled_lt positive
    have high := le_scaled (positive.trans lt) ((unitExponent_ge x).trans_lt apart)
    have gap : ((unitExponent x + 1074 : Int) : Rat) + 1 ≤ (unitExponent y + 1074 : Int) := by
      exact_mod_cast (by omega : unitExponent x + 1074 + 1 ≤ unitExponent y + 1074)
    have width : (0 : Rat) < leadingBit := by norm_num [leadingBit]
    nlinarith
  · unfold scaled
    rw [same]
    have unit : (0 : Rat) < 2 ^ (-unitExponent y) := by positivity
    nlinarith

theorem position_le {x y : Rat} (positive : 0 < x) (le : x ≤ y) : position x ≤ position y := by
  rcases le.lt_or_eq with lt | rfl
  · exact (position_lt positive lt).le
  · exact le_rfl

/-! ## Ranks -/

theorem roundRank_zero : roundRank 0 = 0 := rfl

/-- A unit more is an even number of ranks, so ties to even may be broken on the whole line. -/
theorem roundRank_eq {x : Rat} (positive : 0 < x) :
    (roundRank x : Int) = Tie.even.round (position x) := by
  have unit := unitExponent_ge x
  have significand_nonneg : 0 ≤ Tie.even.round (scaled x) := by
    rw [← Tie.round_intCast .even 0]
    exact Tie.round_mono _ (by exact_mod_cast (scaled_pos positive).le)
  have shift : position x = scaled x + (((unitExponent x + 1074) * leadingBit : Int) : Rat) := by
    unfold position
    push_cast
    ring
  have even_shift : (unitExponent x + 1074) * (leadingBit : Int) % 2 = 0 := by
    unfold leadingBit
    omega
  rw [shift, Tie.even_round_add _ _ even_shift]
  unfold roundRank
  rw [if_neg positive.ne']
  simp only [power_eq_zpow, Nat.cast_ofNat]
  change (((unitExponent x + 1074).toNat * leadingBit +
    (Tie.even.round (scaled x)).toNat : Nat) : Int) = _
  push_cast
  rw [Int.toNat_of_nonneg significand_nonneg, Int.toNat_of_nonneg (by omega)]
  ring

theorem roundRank_mono {x y : Rat} (nonneg : 0 ≤ x) (le : x ≤ y) : roundRank x ≤ roundRank y := by
  rcases nonneg.lt_or_eq with positive | rfl
  · have := Tie.round_mono .even (position_le positive le)
    rw [← roundRank_eq positive, ← roundRank_eq (positive.trans_le le)] at this
    exact_mod_cast this
  · rw [roundRank_zero]
    exact Nat.zero_le _

theorem magnitude_eq (rank : Nat) : magnitude rank = significand rank * 2 ^ exponent rank := by
  unfold magnitude
  rw [power_eq_zpow]
  norm_num

theorem significand_pos {rank : Nat} (positive : 0 < rank) : 0 < significand rank := by
  unfold significand leadingBit
  split <;> omega

theorem significand_lt (rank : Nat) : significand rank < 2 * leadingBit := by
  unfold significand leadingBit
  split <;> omega

theorem magnitude_zero : magnitude 0 = 0 := by
  rw [magnitude_eq]
  simp [significand, leadingBit]

theorem magnitude_pos {rank : Nat} (positive : 0 < rank) : 0 < magnitude rank := by
  have : (0 : Rat) < significand rank := by exact_mod_cast significand_pos positive
  rw [magnitude_eq]
  positivity

theorem magnitude_nonneg (rank : Nat) : 0 ≤ magnitude rank := by
  rw [magnitude_eq]
  positivity

theorem log_magnitude_lt {rank k : Nat} (positive : 0 < rank) (lt : significand rank < 2 ^ k) :
    Int.log 2 (magnitude rank) < exponent rank + k := by
  have lt' : (significand rank : Rat) < 2 ^ (k : Int) := by exact_mod_cast lt
  apply (Int.lt_zpow_iff_log_lt one_lt_two (magnitude_pos positive)).1
  rw [magnitude_eq, Nat.cast_ofNat, zpow_add₀ two_ne_zero, mul_comm]
  exact mul_lt_mul_of_pos_left lt' (by positivity)

theorem le_log_magnitude {rank k : Nat} (positive : 0 < rank) (le : 2 ^ k ≤ significand rank) :
    exponent rank + k ≤ Int.log 2 (magnitude rank) := by
  have le' : (2 : Rat) ^ (k : Int) ≤ significand rank := by exact_mod_cast le
  apply (Int.zpow_le_iff_le_log one_lt_two (magnitude_pos positive)).1
  rw [magnitude_eq, Nat.cast_ofNat, zpow_add₀ two_ne_zero, mul_comm]
  exact mul_le_mul_of_nonneg_right le' (by positivity)

theorem unitExponent_magnitude {rank : Nat} (positive : 0 < rank) :
    unitExponent (magnitude rank) = exponent rank := by
  rw [unitExponent_eq (magnitude_pos positive)]
  by_cases subnormal : rank < leadingBit
  · have exponent_eq : exponent rank = -1074 := if_pos subnormal
    have significand_lt : significand rank < 2 ^ 52 := by
      rw [significand, if_pos subnormal]
      exact subnormal
    have := log_magnitude_lt positive significand_lt
    omega
  · have width : 2 ^ 52 ≤ significand rank := by
      rw [significand, if_neg subnormal]
      exact Nat.le_add_right _ _
    have low := le_log_magnitude positive width
    have high := log_magnitude_lt (k := 53) positive (significand_lt rank)
    have exponent_ge : -1074 ≤ exponent rank := by
      have : 1 ≤ rank / leadingBit := (Nat.one_le_div_iff (by decide)).2 (not_lt.1 subnormal)
      rw [exponent, if_neg subnormal]
      omega
    omega

theorem position_magnitude {rank : Nat} (positive : 0 < rank) : position (magnitude rank) = rank := by
  have scaled_eq : scaled (magnitude rank) = significand rank := by
    unfold scaled
    rw [unitExponent_magnitude positive, magnitude_eq, mul_assoc, ← zpow_add₀ two_ne_zero]
    simp
  unfold position
  rw [scaled_eq, unitExponent_magnitude positive]
  have : (exponent rank + 1074) * leadingBit + significand rank = (rank : Int) := by
    unfold exponent significand leadingBit
    split <;> omega
  exact_mod_cast congrArg (Int.cast (R := Rat)) this

theorem roundRank_magnitude (rank : Nat) : roundRank (magnitude rank) = rank := by
  rcases Nat.eq_zero_or_pos rank with rfl | positive
  · rw [magnitude_zero, roundRank_zero]
  · have := roundRank_eq (magnitude_pos positive)
    rw [position_magnitude positive] at this
    have exact := Tie.round_intCast .even rank
    push_cast at exact
    exact_mod_cast this.trans exact

theorem magnitude_strictMono : StrictMono magnitude := by
  intro m n lt
  by_contra! le
  have := roundRank_mono (magnitude_nonneg n) le
  rw [roundRank_magnitude, roundRank_magnitude] at this
  omega

end LatencyGate.Binary64
