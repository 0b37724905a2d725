import Mathlib
import LatencyGate.Proofs.Gate.Exactness
import LatencyGate.Proofs.Binary64.Spacing

namespace LatencyGate
open Binary64

variable {baseline current : UInt64}

def changeError (baseline current : UInt64) : Rat :=
  (2 ^ (-52 : Int) + 2 ^ (-106 : Int)) * |exactChange baseline current|

theorem roundedChange_of_small (old : baseline.toNat ≤ 2 ^ 53) (new : current.toNat ≤ 2 ^ 53) :
    roundedChange baseline current =
      nearest (nearest (((current.toNat : Rat) - baseline.toNat) / baseline.toNat) * 100) := by
  have difference : nearest ((current.toNat : Rat) - baseline.toNat) =
      (current.toNat : Rat) - baseline.toNat := by
    have := nearest_intCast (n := (current.toNat : Int) - baseline.toNat) (abs_le.2 (by omega))
    push_cast at this
    exact this
  rw [roundedChange, nearest_natCast old, nearest_natCast new, difference]

theorem le_abs_ratio (nonzero : baseline ≠ 0) (old : baseline.toNat ≤ 2 ^ 53) (current : UInt64)
    (changes : ((current.toNat : Rat) - baseline.toNat) / baseline.toNat ≠ 0) :
    2 ^ (-53 : Int) ≤ |((current.toNat : Rat) - baseline.toNat) / baseline.toNat| := by
  have positive := toNat_pos nonzero
  have bound : (baseline.toNat : Rat) ≤ 2 ^ 53 := by exact_mod_cast old
  have apart : (current.toNat : Int) - baseline.toNat ≠ 0 := by
    intro same
    apply changes
    have : (current.toNat : Rat) - baseline.toNat = 0 := by exact_mod_cast same
    rw [this, zero_div]
  have whole : (1 : Rat) ≤ |(current.toNat : Rat) - baseline.toNat| := by
    exact_mod_cast Int.one_le_abs apart
  have part : (2 : Rat) ^ (-53 : Int) = 1 / 2 ^ 53 := by norm_num
  rw [abs_div, abs_of_pos positive, part]
  exact div_le_div₀ (abs_nonneg _) whole positive bound

theorem abs_roundedChange_sub_le (nonzero : baseline ≠ 0) (old : baseline.toNat ≤ 2 ^ 53)
    (new : current.toNat ≤ 2 ^ 53) :
    |roundedChange baseline current - exactChange baseline current| ≤
      changeError baseline current := by
  rw [roundedChange_of_small old new, changeError, exactChange, mul_div_assoc]
  have quotient_ge := le_abs_ratio nonzero old current
  generalize ((current.toNat : Rat) - baseline.toNat) / baseline.toNat = q at quotient_ge ⊢
  have normal : (2 : Rat) ^ (-1022 : Int) ≤ 2 ^ (-53 : Int) :=
    zpow_le_zpow_right₀ (by norm_num) (by norm_num)
  have first : |nearest q - q| ≤ |q| / 2 ^ 53 := by
    apply abs_nearest_sub_le
    intro changes
    exact normal.trans (quotient_ge changes)
  -- The rounded quotient is not much smaller than the exact one, so the product is normal too.
  have low : |q| - |nearest q| ≤ |q| / 2 ^ 53 :=
    (abs_sub_abs_le_abs_sub q (nearest q)).trans (by rwa [abs_sub_comm])
  have high : |nearest q| - |q| ≤ |q| / 2 ^ 53 := (abs_sub_abs_le_abs_sub _ _).trans first
  have second : |nearest (nearest q * 100) - nearest q * 100| ≤ |nearest q * 100| / 2 ^ 53 := by
    apply abs_nearest_sub_le
    intro changes
    have q_ne : q ≠ 0 := by
      rintro rfl
      rw [nearest_zero, zero_mul] at changes
      exact changes rfl
    have := quotient_ge q_ne
    rw [abs_mul, abs_of_pos (by norm_num : (0 : Rat) < 100)]
    linarith
  rw [abs_mul (nearest q), abs_of_pos (by norm_num : (0 : Rat) < 100)] at second
  calc |nearest (nearest q * 100) - 100 * q|
    _ = |(nearest (nearest q * 100) - nearest q * 100) + 100 * (nearest q - q)| := by
        congr 1
        ring
    _ ≤ |nearest (nearest q * 100) - nearest q * 100| + |100 * (nearest q - q)| := abs_add_le _ _
    _ = |nearest (nearest q * 100) - nearest q * 100| + 100 * |nearest q - q| := by
        rw [abs_mul, abs_of_pos (by norm_num : (0 : Rat) < 100)]
    _ ≤ (|q| + |q| / 2 ^ 53) * 100 / 2 ^ 53 + 100 * (|q| / 2 ^ 53) := by
        have : |nearest q| * 100 / 2 ^ 53 ≤ (|q| + |q| / 2 ^ 53) * 100 / 2 ^ 53 := by
          gcongr
          linarith
        linarith
    _ = (2 ^ (-52 : Int) + 2 ^ (-106 : Int)) * |100 * q| := by
        rw [abs_mul, abs_of_pos (by norm_num : (0 : Rat) < 100)]
        norm_num
        ring

/-- For figures up to `2^53` the computed change is off by at most its part `2^-52 + 2^-106`. A
threshold that the exact change exceeds by more fails, and one that it stays below by as much
passes. -/
theorem change_accurate (nonzero : baseline ≠ 0) (old : baseline.toNat ≤ 2 ^ 53)
    (new : current.toNat ≤ 2 ^ 53) :
    ∃ change p, changePercent baseline current = some change ∧ change.toRat? = some p ∧
      |p - exactChange baseline current| ≤ changeError baseline current ∧
      ∀ threshold t, Binary64.toRat? threshold = some t →
        (changeError baseline current < exactChange baseline current - t →
          (decideGate threshold baseline current).Fails) ∧
        (changeError baseline current ≤ t - exactChange baseline current →
          (decideGate threshold baseline current).Passes) := by
  have error := abs_roundedChange_sub_le nonzero old new
  obtain ⟨change, computed, value⟩ := changePercent_eq_some nonzero current
  refine ⟨change, _, computed, value, error, fun threshold t value' => ?_⟩
  obtain ⟨low, high⟩ := abs_le.1 error
  obtain ⟨fails, passes⟩ := decideGate_of_value nonzero current value'
  constructor
  · intro exceeds
    apply fails.2
    linarith
  · intro within
    apply passes.2
    linarith

theorem change_accurate_smallest_growth :
    (9007199254740991 : UInt64) ≠ 0 ∧ (9007199254740991 : UInt64).toNat ≤ 2 ^ 53 ∧
      (9007199254740992 : UInt64).toNat ≤ 2 ^ 53 ∧
      (∃ change p, changePercent 9007199254740991 9007199254740992 = some change ∧
        change.toRat? = some p ∧
        |p - 100 / 9007199254740991| ≤
          (2 ^ (-52 : Int) + 2 ^ (-106 : Int)) * (100 / 9007199254740991)) ∧
      (decideGate zero 9007199254740991 9007199254740992).Fails := by
  have nonzero : (9007199254740991 : UInt64) ≠ 0 := by decide
  have old : (9007199254740991 : UInt64).toNat ≤ 2 ^ 53 := by decide
  have exact_eq : exactChange 9007199254740991 9007199254740992 = 100 / 9007199254740991 := by
    decide +kernel
  have new : (9007199254740992 : UInt64).toNat ≤ 2 ^ 53 := by decide
  obtain ⟨change, p, computed, value, error, decides⟩ := change_accurate nonzero old new
  have error_eq : changeError 9007199254740991 9007199254740992 =
      (2 ^ (-52 : Int) + 2 ^ (-106 : Int)) * (100 / 9007199254740991) := by
    rw [changeError, exact_eq, abs_of_pos (by norm_num)]
  rw [exact_eq, error_eq] at error decides
  refine ⟨nonzero, old, new, ⟨change, p, computed, value, error⟩, ?_⟩
  apply (decides zero 0 (by decide +kernel)).1
  norm_num

end LatencyGate
