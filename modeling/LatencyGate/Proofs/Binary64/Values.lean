import Mathlib
import LatencyGate.Proofs.Binary64.Rounding

namespace LatencyGate.Binary64

/-- The value of the binary64 number nearest to a rational, ties to even. -/
def nearest (v : Rat) : Rat :=
  if v < 0 then -magnitude (roundRank (-v)) else magnitude (roundRank v)

def largest : Rat := magnitude (infiniteRank - 1)

theorem nearest_of_nonneg {v : Rat} (nonneg : 0 ≤ v) : nearest v = magnitude (roundRank v) :=
  if_neg (not_lt.2 nonneg)

theorem nearest_zero : nearest 0 = 0 := by
  rw [nearest_of_nonneg le_rfl, roundRank_zero, magnitude_zero]

theorem nearest_neg (v : Rat) : nearest (-v) = -nearest v := by
  rcases lt_trichotomy v 0 with negative | rfl | positive
  · simp [nearest, negative, negative.le]
  · simp [nearest_zero]
  · simp [nearest, positive, positive.le]

theorem nearest_nonneg {v : Rat} (nonneg : 0 ≤ v) : 0 ≤ nearest v := by
  rw [nearest_of_nonneg nonneg]
  exact magnitude_nonneg _

theorem nearest_mono_of_nonneg {v w : Rat} (nonneg : 0 ≤ v) (le : v ≤ w) :
    nearest v ≤ nearest w := by
  rw [nearest_of_nonneg nonneg, nearest_of_nonneg (nonneg.trans le)]
  exact magnitude_strictMono.monotone (roundRank_mono nonneg le)

theorem nearest_mono : Monotone nearest := by
  intro v w le
  rcases le_or_gt 0 v with nonneg | negative
  · exact nearest_mono_of_nonneg nonneg le
  have v_eq : nearest v = -nearest (-v) := by rw [nearest_neg, neg_neg]
  rcases le_or_gt 0 w with nonneg | negative'
  · have := nearest_nonneg (neg_pos.2 negative).le
    have := nearest_nonneg nonneg
    linarith
  · have w_eq : nearest w = -nearest (-w) := by rw [nearest_neg, neg_neg]
    have := nearest_mono_of_nonneg (neg_pos.2 negative').le (neg_le_neg le)
    linarith

theorem nearest_magnitude (rank : Nat) : nearest (magnitude rank) = magnitude rank := by
  rw [nearest_of_nonneg (magnitude_nonneg rank), roundRank_magnitude]

theorem nearest_eq_self {x : Rat} {rank : Nat} (positive : 0 < x) (h : position x = rank) :
    nearest x = x := by
  have rank_pos : 0 < rank := by
    have := position_pos positive
    rw [h] at this
    exact_mod_cast this
  have same : magnitude rank = x := by
    have placed := position_magnitude rank_pos
    rcases lt_trichotomy (magnitude rank) x with less | same | greater
    · have := position_lt (magnitude_pos rank_pos) less
      rw [placed, h] at this
      exact absurd this (lt_irrefl _)
    · exact same
    · have := position_lt positive greater
      rw [placed, h] at this
      exact absurd this (lt_irrefl _)
  rw [← same, nearest_magnitude]

theorem nearest_natCast {n : Nat} (fits : n ≤ 2 ^ 53) : nearest n = n := by
  rcases Nat.eq_zero_or_pos n with rfl | positive
  · exact_mod_cast nearest_zero
  have pos : (0 : Rat) < n := by exact_mod_cast positive
  have unit_ge := unitExponent_ge (n : Rat)
  have log_nonneg : 0 ≤ Int.log 2 (n : Rat) := by
    rw [Int.log_natCast]
    omega
  have unit_eq := unitExponent_eq pos
  -- Below `2^53` the last place is no more than one, and `2^53` itself is a power of two.
  obtain ⟨s, scaled_eq⟩ : ∃ s : Nat, scaled n = s := by
    unfold scaled
    rcases le_or_gt (unitExponent (n : Rat)) 0 with small | large
    · obtain ⟨k, hk⟩ := Int.eq_ofNat_of_zero_le (neg_nonneg.2 small)
      exact ⟨n * 2 ^ k, by rw [hk]; push_cast; rfl⟩
    · have le := (Int.zpow_le_iff_le_log (b := 2) one_lt_two pos).2
        (by omega : (53 : Int) ≤ Int.log 2 (n : Rat))
      have n_eq : n = 2 ^ 53 := le_antisymm fits (by exact_mod_cast le)
      have lt := (Int.lt_zpow_iff_log_lt (b := 2) one_lt_two pos).1
        (by rw [n_eq]; norm_num : (n : Rat) < ((2 : Nat) : Rat) ^ (54 : Int))
      refine ⟨2 ^ 52, ?_⟩
      rw [(by omega : unitExponent (n : Rat) = 1), n_eq]
      norm_num
  have unit_cast : (((unitExponent (n : Rat) + 1074).toNat : Int) : Rat) =
      (unitExponent (n : Rat) + 1074 : Int) :=
    congrArg Int.cast (Int.toNat_of_nonneg (by omega))
  have placed : position n =
      (((unitExponent (n : Rat) + 1074).toNat * leadingBit + s : Nat) : Rat) := by
    unfold position
    rw [scaled_eq, ← unit_cast]
    push_cast
    rfl
  exact nearest_eq_self pos placed

theorem magnitude_mul_leadingBit {m : Nat} (positive : 0 < m) :
    magnitude (m * leadingBit) = 2 ^ ((m : Int) - 1023) := by
  have normal : ¬m * leadingBit < leadingBit := by
    unfold leadingBit
    omega
  have exponent_eq : exponent (m * leadingBit) = (m : Int) - 1075 := by
    unfold exponent
    rw [if_neg normal, Nat.mul_div_cancel _ (by decide)]
  have significand_eq : significand (m * leadingBit) = 2 ^ 52 := by
    unfold significand
    rw [if_neg normal, Nat.mul_mod_left]
    rfl
  rw [magnitude_eq, significand_eq, exponent_eq]
  have split : (m : Int) - 1023 = 52 + ((m : Int) - 1075) := by ring
  rw [split, zpow_add₀ two_ne_zero]
  norm_num

theorem nearest_two_zpow {e : Int} (normal : -1022 ≤ e) : nearest (2 ^ e) = 2 ^ e := by
  have := magnitude_mul_leadingBit (m := (e + 1023).toNat) (by omega)
  rw [(by omega : ((e + 1023).toNat : Int) - 1023 = e)] at this
  rw [← this, nearest_magnitude]

theorem nearest_two_pow (k : Nat) : nearest (2 ^ k) = 2 ^ k := by
  have := nearest_two_zpow (e := k) (by omega)
  rwa [zpow_natCast] at this

theorem two_pow_le_largest {k : Nat} (h : k ≤ 1023) : 2 ^ k ≤ largest := by
  have := magnitude_mul_leadingBit (m := k + 1023) (by omega)
  push_cast at this
  rw [add_sub_cancel_right, zpow_natCast] at this
  rw [← this, largest]
  refine magnitude_strictMono.monotone ?_
  unfold infiniteRank leadingBit
  omega

theorem roundRank_lt {v : Rat} (nonneg : 0 ≤ v) (bound : v ≤ largest) :
    roundRank v < infiniteRank := by
  have := roundRank_mono nonneg bound
  rw [largest, roundRank_magnitude] at this
  unfold infiniteRank at *
  omega

theorem toRat?_eq_some {x : Binary64} {v : Rat} :
    x.toRat? = some v ↔ ∃ negative rank, x = .finite negative rank ∧
      v = signedMagnitude negative rank := by
  cases x with
  | nan => simp [toRat?]
  | infinity negative => simp [toRat?]
  | finite negative rank => simp [toRat?, eq_comm]

theorem round_eq_finite {v : Rat} (negative : Bool) (nonneg : 0 ≤ v) (bound : v ≤ largest) :
    ∃ rank, round negative v = .finite negative rank ∧ magnitude rank = nearest v :=
  have finite := roundRank_lt nonneg bound
  ⟨⟨roundRank v, finite⟩, dif_pos finite, (nearest_of_nonneg nonneg).symm⟩

theorem toRat?_round {v : Rat} (negative : Bool) (nonneg : 0 ≤ v) (bound : v ≤ largest) :
    (round negative v).toRat? = some (if negative then -nearest v else nearest v) := by
  obtain ⟨rank, rounded, rank_eq⟩ := round_eq_finite negative nonneg bound
  rw [rounded, ← rank_eq]
  rfl

theorem isFinite_of_toRat? {x : Binary64} {v : Rat} (value : x.toRat? = some v) : x.isFinite := by
  obtain ⟨negative, rank, rfl, -⟩ := toRat?_eq_some.1 value
  rfl

theorem toRat?_ofNat {n : Nat} (bound : (n : Rat) ≤ largest) :
    (ofNat n).toRat? = some (nearest n) := by
  rw [ofNat, toRat?_round false (by positivity) bound]
  rfl

theorem toRat?_ofNat_of_le {n : Nat} (fits : n ≤ 2 ^ 53) : (ofNat n).toRat? = some (n : Rat) := by
  have bound : (n : Rat) ≤ 2 ^ 53 := by exact_mod_cast fits
  rw [toRat?_ofNat (bound.trans (two_pow_le_largest (by norm_num))), nearest_natCast fits]

theorem toRat?_zero : zero.toRat? = some 0 := by
  change some (signedMagnitude false 0) = some 0
  rw [signedMagnitude, magnitude_zero]
  rfl

theorem toRat?_round_abs {v : Rat} {negative : Bool} (bound : |v| ≤ largest)
    (sign : v < 0 → negative = true) (sign' : 0 < v → negative = false) :
    (round negative |v|).toRat? = some (nearest v) := by
  rw [toRat?_round negative (abs_nonneg v) bound]
  rcases lt_trichotomy v 0 with less | rfl | greater
  · rw [sign less, abs_of_neg less, nearest_neg]
    simp
  · simp [nearest_zero]
  · rw [sign' greater, abs_of_pos greater]
    rfl

theorem toRat?_sub {x y : Binary64} {v w : Rat} (hx : x.toRat? = some v) (hy : y.toRat? = some w)
    (bound : |v - w| ≤ largest) : (x.sub y).toRat? = some (nearest (v - w)) := by
  obtain ⟨a, m, rfl, rfl⟩ := toRat?_eq_some.1 hx
  obtain ⟨b, n, rfl, rfl⟩ := toRat?_eq_some.1 hy
  simp only [sub, rat_abs_eq]
  split
  · rename_i zero
    rw [zero, toRat?_round _ le_rfl (magnitude_nonneg _), nearest_zero]
    simp
  · exact toRat?_round_abs bound (fun negative => decide_eq_true negative)
      (fun positive => decide_eq_false (not_lt.2 positive.le))

theorem abs_signedMagnitude (negative : Bool) (rank : Nat) :
    |signedMagnitude negative rank| = magnitude rank := by
  cases negative <;> simp [signedMagnitude, abs_of_nonneg (magnitude_nonneg rank)]

theorem signedMagnitude_mul (a b : Bool) (m n : Nat) :
    signedMagnitude a m * signedMagnitude b n =
      if a != b then -(magnitude m * magnitude n) else magnitude m * magnitude n := by
  cases a <;> cases b <;> simp [signedMagnitude]

theorem signedMagnitude_div (a b : Bool) (m n : Nat) :
    signedMagnitude a m / signedMagnitude b n =
      if a != b then -(magnitude m / magnitude n) else magnitude m / magnitude n := by
  cases a <;> cases b <;> simp [signedMagnitude, neg_div, div_neg]

theorem toRat?_mul {x y : Binary64} {v w : Rat} (hx : x.toRat? = some v) (hy : y.toRat? = some w)
    (bound : |v * w| ≤ largest) : (x.mul y).toRat? = some (nearest (v * w)) := by
  obtain ⟨a, m, rfl, rfl⟩ := toRat?_eq_some.1 hx
  obtain ⟨b, n, rfl, rfl⟩ := toRat?_eq_some.1 hy
  have nonneg := mul_nonneg (magnitude_nonneg m) (magnitude_nonneg n)
  rw [abs_mul, abs_signedMagnitude, abs_signedMagnitude] at bound
  rw [mul, toRat?_round _ nonneg bound, signedMagnitude_mul]
  split
  · rw [nearest_neg]
  · rfl

theorem magnitude_eq_zero {rank : Nat} : magnitude rank = 0 ↔ rank = 0 := by
  rw [← magnitude_zero, magnitude_strictMono.injective.eq_iff]

theorem toRat?_div {x y : Binary64} {v w : Rat} (hx : x.toRat? = some v) (hy : y.toRat? = some w)
    (nonzero : w ≠ 0) (bound : |v / w| ≤ largest) :
    (x.div y).toRat? = some (nearest (v / w)) := by
  obtain ⟨a, m, rfl, rfl⟩ := toRat?_eq_some.1 hx
  obtain ⟨b, n, rfl, rfl⟩ := toRat?_eq_some.1 hy
  have nonneg := div_nonneg (magnitude_nonneg m) (magnitude_nonneg n)
  have divisor : n.val ≠ 0 := by
    rw [← abs_ne_zero, abs_signedMagnitude] at nonzero
    exact mt magnitude_eq_zero.2 nonzero
  rw [abs_div, abs_signedMagnitude, abs_signedMagnitude] at bound
  rw [div, if_neg divisor, toRat?_round _ nonneg bound, signedMagnitude_div]
  split
  · rw [nearest_neg]
  · rfl

theorem lt_iff {x y : Binary64} {v w : Rat} (hx : x.toRat? = some v) (hy : y.toRat? = some w) :
    x.lt y = true ↔ v < w := by
  obtain ⟨a, m, rfl, rfl⟩ := toRat?_eq_some.1 hx
  obtain ⟨b, n, rfl, rfl⟩ := toRat?_eq_some.1 hy
  have order : magnitude m < magnitude n ↔ m.val < n.val := magnitude_strictMono.lt_iff_lt
  have order' : magnitude n < magnitude m ↔ n.val < m.val := magnitude_strictMono.lt_iff_lt
  have nonneg := magnitude_nonneg m
  have nonneg' := magnitude_nonneg n
  cases a <;> cases b <;> simp only [lt, place?, signedMagnitude, Bool.false_eq_true, ↓reduceIte,
    decide_eq_true_eq]
  case false.false => rw [order]; omega
  case true.true => rw [neg_lt_neg_iff, neg_lt_neg_iff, order']; omega
  case false.true => constructor <;> intro h <;> [omega; linarith]
  case true.false =>
    -- Of two numbers with unlike signs only the two zeros are equal.
    have zero : magnitude m = 0 ↔ m.val = 0 := magnitude_eq_zero
    have zero' : magnitude n = 0 ↔ n.val = 0 := magnitude_eq_zero
    constructor
    · intro less
      by_contra! le
      have := zero.1 (by linarith)
      have := zero'.1 (by linarith)
      omega
    · intro less
      by_contra! le
      have := zero.2 (by omega)
      have := zero'.2 (by omega)
      linarith

theorem eq_iff_of_lt_iff {α β : Type} [LinearOrder α] [LinearOrder β] {a b : α} {c d : β}
    (less : a < b ↔ c < d) (greater : b < a ↔ d < c) : a = b ↔ c = d := by
  rw [le_antisymm_iff, le_antisymm_iff, ← not_lt, ← not_lt, ← not_lt, ← not_lt, less, greater]

theorem equals_iff {x y : Binary64} {v w : Rat} (hx : x.toRat? = some v) (hy : y.toRat? = some w) :
    x.equals y = true ↔ v = w := by
  have less := lt_iff hx hy
  have greater := lt_iff hy hx
  obtain ⟨a, m, rfl, -⟩ := toRat?_eq_some.1 hx
  obtain ⟨b, n, rfl, -⟩ := toRat?_eq_some.1 hy
  simp only [lt, equals, place?, decide_eq_true_eq] at less greater ⊢
  exact eq_iff_of_lt_iff less greater

theorem eq_finite_of_toRat? {x : Binary64} {v : Rat} (nonzero : v ≠ 0)
    (value : x.toRat? = some v) :
    ∃ rank, x = .finite (decide (v < 0)) rank ∧ magnitude rank = |v| := by
  obtain ⟨negative, rank, rfl, rfl⟩ := toRat?_eq_some.1 value
  refine ⟨rank, ?_, (abs_signedMagnitude negative rank).symm⟩
  have positive : 0 < magnitude rank := by
    rw [← abs_signedMagnitude negative]
    exact abs_pos.2 nonzero
  congr 1
  cases negative with
  | false => exact (decide_eq_false positive.not_gt).symm
  | true => exact (decide_eq_true (neg_neg_of_pos positive)).symm

theorem eq_of_toRat?_eq {x y : Binary64} {v : Rat} (nonzero : v ≠ 0) (hx : x.toRat? = some v)
    (hy : y.toRat? = some v) : x = y := by
  obtain ⟨m, rfl, m_eq⟩ := eq_finite_of_toRat? nonzero hx
  obtain ⟨n, rfl, n_eq⟩ := eq_finite_of_toRat? nonzero hy
  have ranks : m = n := Fin.ext (magnitude_strictMono.injective (m_eq.trans n_eq.symm))
  rw [ranks]

theorem toBits_ofBits {bits : UInt64} (number : ofBits bits ≠ .nan) : (ofBits bits).toBits = bits := by
  have size := bits.toNat_lt
  have pattern {n : Nat} (same : n = bits.toNat) : UInt64.ofNat n = bits := by
    rw [same, UInt64.ofNat_toNat]
  unfold ofBits at number ⊢
  dsimp only at number ⊢
  split
  · apply pattern
    by_cases negative : signBit ≤ bits.toNat <;> simp [negative] <;> unfold signBit at * <;> omega
  split
  · rename_i rank
    apply pattern
    by_cases negative : signBit ≤ bits.toNat <;> simp [negative] <;> unfold signBit at * <;> omega
  · rename_i finite infinite
    simp [finite, infinite] at number

end LatencyGate.Binary64
