import Mathlib
import LatencyGate.Gate
import LatencyGate.Proofs.Binary64.Values

namespace LatencyGate
open Binary64

def roundedChange (baseline current : UInt64) : Rat :=
  let old := nearest baseline.toNat
  let new := nearest current.toNat
  nearest (nearest (nearest (new - old) / old) * 100)

theorem nearest_toNat_le (n : UInt64) : nearest n.toNat ≤ 2 ^ 64 := by
  have lt : n.toNat < 2 ^ 64 := n.toNat_lt
  calc nearest n.toNat ≤ nearest (2 ^ 64) := nearest_mono (by exact_mod_cast lt.le)
    _ = 2 ^ 64 := nearest_two_pow 64

theorem one_le_toNat {n : UInt64} (nonzero : n ≠ 0) : 1 ≤ n.toNat :=
  Nat.one_le_iff_ne_zero.2 (by simpa [← UInt64.toNat_inj] using nonzero)

theorem toNat_pos {n : UInt64} (nonzero : n ≠ 0) : (0 : Rat) < n.toNat := by
  exact_mod_cast one_le_toNat nonzero

theorem one_le_nearest {n : UInt64} (nonzero : n ≠ 0) : 1 ≤ nearest n.toNat := by
  have positive := one_le_toNat nonzero
  calc (1 : Rat) = nearest ((1 : Nat) : Rat) := by rw [nearest_natCast (by norm_num)]; norm_num
    _ ≤ nearest n.toNat := nearest_mono (by exact_mod_cast positive)

theorem nearest_toNat_pos {n : UInt64} (nonzero : n ≠ 0) : 0 < nearest n.toNat :=
  zero_lt_one.trans_le (one_le_nearest nonzero)

theorem abs_nearest_le {v : Rat} {k : Nat} (bound : |v| ≤ 2 ^ k) : |nearest v| ≤ 2 ^ k := by
  obtain ⟨low, high⟩ := abs_le.1 bound
  have low' := nearest_mono low
  have high' := nearest_mono high
  rw [nearest_neg, nearest_two_pow] at low'
  rw [nearest_two_pow] at high'
  exact abs_le.2 ⟨low', high'⟩

theorem toRat?_ofNat_toNat (n : UInt64) : (ofNat n.toNat).toRat? = some (nearest n.toNat) := by
  have lt : n.toNat < 2 ^ 64 := n.toNat_lt
  have bound : (n.toNat : Rat) ≤ 2 ^ 64 := by exact_mod_cast lt.le
  exact toRat?_ofNat (bound.trans (two_pow_le_largest (by norm_num)))

section
variable {baseline : UInt64}

theorem abs_difference_le (nonzero : baseline ≠ 0) (current : UInt64) :
    |nearest current.toNat - nearest baseline.toNat| ≤ 2 ^ 64 := by
  have old_ge := one_le_nearest nonzero
  have old_le := nearest_toNat_le baseline
  have new_le := nearest_toNat_le current
  have new_ge : 0 ≤ nearest current.toNat := nearest_nonneg (by positivity)
  exact abs_le.2 ⟨by linarith, by linarith⟩

theorem abs_quotient_le (nonzero : baseline ≠ 0) (current : UInt64) :
    |nearest (nearest current.toNat - nearest baseline.toNat) / nearest baseline.toNat| ≤
      2 ^ 64 := by
  rw [abs_div, abs_of_pos (nearest_toNat_pos nonzero)]
  exact (div_le_self (abs_nonneg _) (one_le_nearest nonzero)).trans
    (abs_nearest_le (abs_difference_le nonzero current))

theorem le_largest_of_le {v : Rat} {k : Nat} (bound : v ≤ 2 ^ k) (small : k ≤ 1023) :
    v ≤ largest :=
  bound.trans (two_pow_le_largest small)

theorem toRat?_difference (nonzero : baseline ≠ 0) (current : UInt64) :
    ((ofNat current.toNat).sub (ofNat baseline.toNat)).toRat? =
      some (nearest (nearest current.toNat - nearest baseline.toNat)) :=
  toRat?_sub (toRat?_ofNat_toNat current) (toRat?_ofNat_toNat baseline)
    (le_largest_of_le (abs_difference_le nonzero current) (by norm_num))

theorem toRat?_quotient (nonzero : baseline ≠ 0) (current : UInt64) :
    (((ofNat current.toNat).sub (ofNat baseline.toNat)).div (ofNat baseline.toNat)).toRat? =
      some (nearest (nearest (nearest current.toNat - nearest baseline.toNat) /
        nearest baseline.toNat)) :=
  toRat?_div (toRat?_difference nonzero current) (toRat?_ofNat_toNat baseline)
    (nearest_toNat_pos nonzero).ne'
    (le_largest_of_le (abs_quotient_le nonzero current) (by norm_num))

theorem changePercent_eq_some (nonzero : baseline ≠ 0) (current : UInt64) :
    ∃ change, changePercent baseline current = some change ∧
      change.toRat? = some (roundedChange baseline current) := by
  have hundred : (ofNat 100).toRat? = some 100 := toRat?_ofNat_of_le (by norm_num)
  have product : |nearest (nearest (nearest current.toNat - nearest baseline.toNat) /
      nearest baseline.toNat) * 100| ≤ 2 ^ 71 := by
    have := abs_nearest_le (abs_quotient_le nonzero current)
    rw [abs_mul]
    norm_num at this ⊢
    linarith
  exact ⟨_, if_neg nonzero, toRat?_mul (toRat?_quotient nonzero current) hundred
    (le_largest_of_le product (by norm_num))⟩

end

def Outcome.Fails (o : Outcome) : Prop := ∃ m, o = .fail m

def Outcome.Passes (o : Outcome) : Prop := ∃ m, o = .pass m

theorem Outcome.fails_iff {o : Outcome} : o.Fails ↔ o.passed = false := by
  cases o <;> simp [Fails, passed]

theorem Outcome.passes_iff {o : Outcome} : o.Passes ↔ o.status = "pass" := by
  cases o <;> simp [Passes, status]

instance (o : Outcome) : Decidable o.Fails := decidable_of_iff _ Outcome.fails_iff.symm

instance (o : Outcome) : Decidable o.Passes := decidable_of_iff _ Outcome.passes_iff.symm

section
variable {baseline current : UInt64} {change : Binary64}
  (computed : changePercent baseline current = some change) (threshold : Binary64)
include computed

theorem decideGate_eq :
    decideGate threshold baseline current =
      if threshold.lt change then .fail ⟨baseline, current, change, threshold⟩
      else .pass ⟨baseline, current, change, threshold⟩ := by
  simp [decideGate, computed]

theorem measurement?_decideGate :
    (decideGate threshold baseline current).measurement? =
      some ⟨baseline, current, change, threshold⟩ := by
  rw [decideGate_eq computed]
  split <;> rfl

theorem status_decideGate :
    (decideGate threshold baseline current).status =
      if threshold.lt change then "fail" else "pass" := by
  rw [decideGate_eq computed]
  split <;> rfl

theorem lines_decideGate :
    (decideGate threshold baseline current).lines[2]? =
      some ("Change: " ++ change.fixedText 1 true ++ "%") := by
  rw [Outcome.lines, measurement?_decideGate computed]
  rfl

theorem decideGate_fails_iff :
    (decideGate threshold baseline current).Fails ↔ threshold.lt change = true := by
  rw [decideGate_eq computed]
  split <;> simp_all [Outcome.Fails]

theorem decideGate_passes_iff :
    (decideGate threshold baseline current).Passes ↔ threshold.lt change = false := by
  rw [decideGate_eq computed]
  split <;> simp_all [Outcome.Passes]

end

end LatencyGate
