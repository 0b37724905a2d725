import Mathlib
import LatencyGate.Binary64

namespace LatencyGate

theorem power_eq_zpow (base : Nat) (e : Int) : power base e = (base : Rat) ^ e := by
  cases e with
  | ofNat n => simp [power]
  | negSucc n => simp [power, zpow_negSucc, Rat.mkRat_eq_div]

theorem rat_abs_eq (v : Rat) : v.abs = |v| := by
  rcases le_total 0 v with nonneg | nonpos
  · rw [Rat.abs_of_nonneg nonneg, abs_of_nonneg nonneg]
  · rw [Rat.abs_of_nonpos nonpos, abs_of_nonpos nonpos]

namespace Tie

variable (tie : Tie) (x : Rat)

theorem abs_round_sub_le : |(tie.round x : Rat) - x| ≤ 1 / 2 := by
  have below : (x.floor : Rat) ≤ x := Rat.floor_le x
  have above : x < ((x.floor + 1 : Int) : Rat) := Rat.lt_floor_add_one x
  push_cast at above
  unfold round
  dsimp only
  split
  · rw [abs_le]; constructor <;> linarith
  split
  · push_cast; rw [abs_le]; constructor <;> linarith
  have half : 2 * (x - x.floor) = 1 := by linarith
  cases tie with
  | even =>
      dsimp only
      split
      · rw [abs_le]; constructor <;> linarith
      · push_cast; rw [abs_le]; constructor <;> linarith
  | up => push_cast; rw [abs_le]; constructor <;> linarith

theorem round_mono : Monotone tie.round := by
  intro x y le
  by_contra! lt
  -- Two integers in the wrong order are a whole apart, which two halves can only make up at a tie.
  have apart : (tie.round y : Rat) + 1 ≤ tie.round x := by exact_mod_cast lt
  have hx := abs_le.1 (abs_round_sub_le tie x)
  have hy := abs_le.1 (abs_round_sub_le tie y)
  have same : x = y := by linarith
  rw [same] at lt
  exact lt_irrefl _ lt

theorem round_intCast (n : Int) : tie.round n = n := by
  simp [round, Rat.floor_intCast]

theorem even_round_of_half (half : |(even.round x : Rat) - x| = 1 / 2) :
    even.round x % 2 = 0 := by
  have below : (x.floor : Rat) ≤ x := Rat.floor_le x
  have above : x < ((x.floor + 1 : Int) : Rat) := Rat.lt_floor_add_one x
  push_cast at above
  revert half
  unfold round
  dsimp only
  split
  · rw [abs_sub_comm, abs_of_nonneg (by linarith)]
    intro half
    linarith
  split
  · push_cast
    rw [abs_of_nonneg (by linarith)]
    intro half
    linarith
  split <;> omega

theorem even_round_add (n : Int) (h : n % 2 = 0) : even.round (x + n) = even.round x + n := by
  have shift : (x + n).floor = x.floor + n := Rat.floor_add_intCast
  have rest : x + n - ((x.floor + n : Int) : Rat) = x - x.floor := by push_cast; ring
  have parity : (x.floor + n) % 2 = x.floor % 2 := by omega
  unfold round
  simp only [shift, rest, parity]
  split_ifs <;> omega

end Tie

/-- Of the integers `k` is the nearest to `x`; of two that are equally near it is the even one. -/
structure IsNearestEven (x : Rat) (k : Int) : Prop where
  nearest : ∀ l : Int, |k - x| ≤ |l - x|
  even : ∀ l : Int, l ≠ k → |l - x| = |k - x| → k % 2 = 0

namespace IsNearestEven

variable {x y : Rat} {k l : Int}

theorem abs_sub_le_half (near : IsNearestEven x k) : |k - x| ≤ 1 / 2 :=
  (near.nearest _).trans (Tie.abs_round_sub_le .even x)

theorem even_of_half (near : IsNearestEven x k) (half : |k - x| = 1 / 2) : k % 2 = 0 := by
  rcases (abs_eq (by norm_num)).1 half with above | below
  · refine near.even (k - 1) (by omega) ?_
    rw [half, abs_eq (by norm_num)]
    right
    push_cast
    linarith
  · refine near.even (k + 1) (by omega) ?_
    rw [half, abs_eq (by norm_num)]
    left
    push_cast
    linarith

protected theorem neg (near : IsNearestEven x k) : IsNearestEven (-x) (-k) := by
  have mirrored (l : Int) : |((-l : Int) : Rat) - -x| = |l - x| := by
    rw [Int.cast_neg, ← neg_sub', abs_neg]
  constructor
  · intro l
    rw [mirrored, ← neg_neg l, mirrored]
    exact near.nearest (-l)
  · intro l other same
    rw [mirrored, ← neg_neg l, mirrored] at same
    have := near.even (-l) (by omega) same
    omega

protected theorem mono (near : IsNearestEven x k) (near' : IsNearestEven y l) (le : x ≤ y) :
    k ≤ l := by
  by_contra! less
  have apart : (l : Rat) + 1 ≤ k := by exact_mod_cast less
  have error := abs_le.1 near.abs_sub_le_half
  have error' := abs_le.1 near'.abs_sub_le_half
  have above : (k : Rat) - x = 1 / 2 := by linarith
  have below : (l : Rat) - y = -(1 / 2) := by linarith
  have next : k = l + 1 := by
    have : (k : Rat) = l + 1 := by linarith
    exact_mod_cast this
  have even := near.even_of_half (by rw [above, abs_of_pos (by norm_num)])
  have even' := near'.even_of_half (by rw [below, abs_neg, abs_of_pos (by norm_num)])
  omega

end IsNearestEven

theorem Tie.isNearestEven_round (x : Rat) : IsNearestEven x (even.round x) := by
  have error := abs_round_sub_le even x
  have far {l : Int} (other : l ≠ even.round x) : 1 / 2 ≤ |l - x| := by
    have apart : (1 : Rat) ≤ |(l : Rat) - even.round x| := by
      exact_mod_cast Int.one_le_abs (sub_ne_zero.2 other)
    have through := abs_sub_le (l : Rat) x (even.round x)
    rw [abs_sub_comm x] at through
    linarith
  constructor
  · intro l
    by_cases same : l = even.round x
    · rw [same]
    · exact error.trans (far same)
  · intro l other same
    have half : |(even.round x : Rat) - x| = 1 / 2 := le_antisymm error (same ▸ far other)
    exact even_round_of_half x half

end LatencyGate
