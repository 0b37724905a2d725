import Mathlib
import LatencyGate.Proofs.Gate.Change

namespace LatencyGate
open Binary64

theorem roundedChange_mono {baseline current current' : UInt64} (nonzero : baseline ≠ 0)
    (slower : current ≤ current') :
    roundedChange baseline current ≤ roundedChange baseline current' := by
  have old_pos : 0 < nearest baseline.toNat := nearest_toNat_pos nonzero
  have news : nearest current.toNat ≤ nearest current'.toNat :=
    nearest_mono (by exact_mod_cast slower)
  have differences := nearest_mono (sub_le_sub_right news (nearest baseline.toNat))
  have quotients := nearest_mono (div_le_div_of_nonneg_right differences old_pos.le)
  exact nearest_mono (mul_le_mul_of_nonneg_right quotients (by norm_num))

/-- With the baseline both the difference and the divisor move, but of a difference that is not
negative they move the quotient the same way. -/
theorem roundedChange_antitone {baseline baseline' current : UInt64} (nonzero : baseline' ≠ 0)
    (faster : baseline' ≤ baseline) (slower : baseline ≤ current) :
    roundedChange baseline current ≤ roundedChange baseline' current := by
  have old_pos : 0 < nearest baseline'.toNat := nearest_toNat_pos nonzero
  have olds : nearest baseline'.toNat ≤ nearest baseline.toNat :=
    nearest_mono (by exact_mod_cast faster)
  have news : nearest baseline.toNat ≤ nearest current.toNat :=
    nearest_mono (by exact_mod_cast slower)
  have difference_nonneg := nearest_nonneg (sub_nonneg.2 news)
  have differences := nearest_mono (sub_le_sub_left olds (nearest current.toNat))
  have quotients := nearest_mono
    (div_le_div₀ (difference_nonneg.trans differences) differences old_pos olds)
  exact nearest_mono (mul_le_mul_of_nonneg_right quotients (by norm_num))

def Binary64.le (x y : Binary64) : Bool := x.lt y || x.equals y

theorem lt_eq_true {x y : Binary64} :
    x.lt y = true ↔ ∃ a b, x.place? = some a ∧ y.place? = some b ∧ a < b := by
  unfold lt
  cases x.place? <;> cases y.place? <;> simp

theorem le_eq_true {x y : Binary64} :
    x.le y = true ↔ ∃ a b, x.place? = some a ∧ y.place? = some b ∧ a ≤ b := by
  unfold Binary64.le lt equals
  cases x.place? <;> cases y.place? <;> simp [le_iff_lt_or_eq]

theorem le_iff {x y : Binary64} {v w : Rat} (hx : x.toRat? = some v) (hy : y.toRat? = some w) :
    x.le y = true ↔ v ≤ w := by
  rw [Binary64.le, Bool.or_eq_true, lt_iff hx hy, equals_iff hx hy, le_iff_lt_or_eq]

theorem le_of_value_le {x y : Binary64} {v w : Rat} (hx : x.toRat? = some v)
    (hy : y.toRat? = some w) (le : v ≤ w) : x.le y = true :=
  (le_iff hx hy).2 le

theorem lt_of_le_of_lt_of_le {t' t x x' : Binary64} (stricter : t'.le t = true)
    (less : t.lt x = true) (greater : x.le x' = true) : t'.lt x' = true := by
  obtain ⟨a, b, ha, hb, ab⟩ := le_eq_true.1 stricter
  obtain ⟨b', c, hb', hc, bc⟩ := lt_eq_true.1 less
  obtain ⟨c', d, hc', hd, cd⟩ := le_eq_true.1 greater
  obtain rfl : b = b' := Option.some.inj (hb.symm.trans hb')
  obtain rfl : c = c' := Option.some.inj (hc.symm.trans hc')
  exact lt_eq_true.2 ⟨a, d, ha, hd, ab.trans_lt (bc.trans_le cd)⟩

theorem fails_of_le {t t' : Binary64} {baseline baseline' current current' : UInt64}
    (nonzero : baseline ≠ 0) (nonzero' : baseline' ≠ 0) (stricter : t'.le t = true)
    (greater : roundedChange baseline current ≤ roundedChange baseline' current')
    (fails : (decideGate t baseline current).Fails) :
    (decideGate t' baseline' current').Fails := by
  obtain ⟨change, computed, value⟩ := changePercent_eq_some nonzero current
  obtain ⟨change', computed', value'⟩ := changePercent_eq_some nonzero' current'
  rw [decideGate_fails_iff computed] at fails
  rw [decideGate_fails_iff computed']
  exact lt_of_le_of_lt_of_le stricter fails (le_of_value_le value value' greater)

/-- A slower current run and a stricter threshold never turn a failure into a pass, nor, for a run
that is no improvement, does a faster baseline. Thresholds may be infinite. -/
theorem fails_of_slower_of_stricter {t t' : Binary64} {baseline current current' : UInt64}
    (nonzero : baseline ≠ 0) (slower : current ≤ current') (stricter : t'.le t = true)
    (fails : (decideGate t baseline current).Fails) :
    (decideGate t' baseline current').Fails ∧
      ∀ baseline', baseline' ≠ 0 → baseline' ≤ baseline → baseline ≤ current →
        (decideGate t' baseline' current').Fails := by
  have grows := roundedChange_mono nonzero slower
  refine ⟨fails_of_le nonzero nonzero stricter grows fails, ?_⟩
  intro baseline' nonzero' faster noImprovement
  have grows' := roundedChange_antitone nonzero' faster (UInt64.le_trans noImprovement slower)
  exact fails_of_le nonzero nonzero' stricter (grows.trans grows') fails

theorem fails_of_slower_of_stricter_beyond_exact_integers :
    (9007199254740993 : UInt64) ≠ 0 ∧ (Binary64.infinity true).le (.ofNat 10) = true ∧
      (decideGate (.ofNat 10) 9007199254740993 9907919180215095).Fails ∧
      (decideGate (.infinity true) 9007199254740993 18446744073709551615).Fails ∧
      (decideGate (.infinity true) 3 18446744073709551615).Fails := by
  have nonzero : (9007199254740993 : UInt64) ≠ 0 := by decide
  have slower : (9907919180215095 : UInt64) ≤ 18446744073709551615 := by decide
  have stricter : (Binary64.infinity true).le (.ofNat 10) = true := by decide +kernel
  have fails : (decideGate (.ofNat 10) 9007199254740993 9907919180215095).Fails := by decide +kernel
  obtain ⟨slowerFails, fasterFails⟩ := fails_of_slower_of_stricter nonzero slower stricter fails
  exact ⟨nonzero, stricter, fails, slowerFails, fasterFails 3 (by decide) (by decide) (by decide)⟩

end LatencyGate
