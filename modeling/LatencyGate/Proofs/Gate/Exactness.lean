import Mathlib
import LatencyGate.Proofs.Gate.Change

/-!
# Exactness of the gate

The change is computed in rounded steps, so at thresholds between the exact change and the computed
one the gate decides otherwise than exact arithmetic would, and at no others. A growth from 100 to
107 is one of exactly seven percent, and a threshold of seven percent refuses it.
-/

namespace LatencyGate
open Binary64

def exactChange (baseline current : UInt64) : Rat :=
  100 * ((current.toNat : Rat) - baseline.toNat) / baseline.toNat

def DecidesExactly (threshold : Binary64) (baseline current : UInt64) : Prop :=
  ∀ v, threshold.toRat? = some v →
    if v < exactChange baseline current then (decideGate threshold baseline current).Fails
    else (decideGate threshold baseline current).Passes

theorem decideGate_of_value {baseline : UInt64} (nonzero : baseline ≠ 0) (current : UInt64)
    {threshold : Binary64} {v : Rat} (value : threshold.toRat? = some v) :
    ((decideGate threshold baseline current).Fails ↔ v < roundedChange baseline current) ∧
      ((decideGate threshold baseline current).Passes ↔ roundedChange baseline current ≤ v) := by
  obtain ⟨change, computed, value'⟩ := changePercent_eq_some nonzero current
  have less := lt_iff value value'
  rw [decideGate_fails_iff computed, decideGate_passes_iff computed, ← Bool.not_eq_true, less,
    not_lt]
  exact ⟨Iff.rfl, Iff.rfl⟩

theorem decidesExactly_iff_of_value {baseline : UInt64} (nonzero : baseline ≠ 0) (current : UInt64)
    {threshold : Binary64} {v : Rat} (value : threshold.toRat? = some v) :
    DecidesExactly threshold baseline current ↔
      (v < exactChange baseline current ↔ v < roundedChange baseline current) := by
  obtain ⟨fails, passes⟩ := decideGate_of_value nonzero current value
  have single : DecidesExactly threshold baseline current ↔
      if v < exactChange baseline current then (decideGate threshold baseline current).Fails
      else (decideGate threshold baseline current).Passes := by
    constructor
    · exact fun decides => decides v value
    · intro decides w value'
      obtain rfl : v = w := Option.some.inj (value.symm.trans value')
      exact decides
  rw [single, fails, passes]
  split
  · rename_i exceeds
    simp [exceeds]
  · rename_i within
    simp [within]

/-- The gate decides exactly unless the threshold lies between the exact change and the computed
one. At every threshold it does so just if the computed change is the least number that is not
below the exact one. -/
theorem decidesExactly_iff {baseline : UInt64} (nonzero : baseline ≠ 0) (current : UInt64) :
    (∀ threshold v, threshold.toRat? = some v →
      (DecidesExactly threshold baseline current ↔
        ¬(exactChange baseline current ≤ v ∧ v < roundedChange baseline current) ∧
        ¬(roundedChange baseline current ≤ v ∧ v < exactChange baseline current))) ∧
    ((∀ threshold, DecidesExactly threshold baseline current) ↔
      exactChange baseline current ≤ roundedChange baseline current ∧
      ∀ y w, Binary64.toRat? y = some w → exactChange baseline current ≤ w →
        roundedChange baseline current ≤ w) := by
  obtain ⟨change, computed, value⟩ := changePercent_eq_some nonzero current
  constructor
  · intro threshold v value'
    rw [decidesExactly_iff_of_value nonzero current value', ← not_lt, ← not_lt]
    tauto
  constructor
  · intro decides
    constructor
    · -- The computed change is a threshold itself, which it does not exceed.
      have := (decidesExactly_iff_of_value nonzero current value).1 (decides change)
      exact not_lt.1 fun exceeds => lt_irrefl _ (this.1 exceeds)
    · intro y w value' le
      have := (decidesExactly_iff_of_value nonzero current value').1 (decides y)
      exact not_lt.1 fun exceeds => not_lt.2 le (this.2 exceeds)
  · rintro ⟨le, least⟩ threshold v value'
    refine (decidesExactly_iff_of_value nonzero current value').2 ?_ v value'
    constructor
    · exact fun exceeds => exceeds.trans_le le
    · exact fun exceeds => not_le.1 fun le' => not_lt.2 (least threshold v value' le') exceeds

theorem decidesExactly_quarter :
    (1000 : UInt64) ≠ 0 ∧ DecidesExactly (.ofNat 25) 1000 1250 := by
  have nonzero : (1000 : UInt64) ≠ 0 := by decide
  have value : (Binary64.ofNat 25).toRat? = some 25 := by decide +kernel
  exact ⟨nonzero, ((decidesExactly_iff nonzero 1250).1 _ _ value).2 (by decide +kernel)⟩

theorem not_decidesExactly_seven_percent :
    (Binary64.ofBits 0x401C000000000000).toRat? = some (exactChange 100 107) ∧
      (decideGate (.ofBits 0x401C000000000000) 100 107).Fails ∧
      ¬DecidesExactly (.ofBits 0x401C000000000000) 100 107 := by
  have value : (Binary64.ofBits 0x401C000000000000).toRat? = some (exactChange 100 107) := by
    decide +kernel
  have fails : (decideGate (.ofBits 0x401C000000000000) 100 107).Fails := by decide +kernel
  refine ⟨value, fails, fun decides => ?_⟩
  have passes := decides _ value
  rw [if_neg (lt_irrefl _)] at passes
  obtain ⟨m, failed⟩ := fails
  obtain ⟨m', passed⟩ := passes
  rw [failed] at passed
  nomatch passed

end LatencyGate
