import Mathlib
import LatencyGate.Decimal
import LatencyGate.Proofs.Json.Meaning

namespace LatencyGate.Json

open Reader

def Digits.valueFrom (n : Nat) (ds : Digits) : Nat := ds.foldl (fun n d => n * 10 + d.val) n

theorem Digits.valueFrom_cons (n : Nat) (d : Fin 10) (ds : Digits) :
    valueFrom n (d :: ds) = valueFrom (n * 10 + d.val) ds :=
  rfl

theorem Digits.le_valueFrom (n : Nat) (ds : Digits) : n ≤ valueFrom n ds := by
  induction ds generalizing n with
  | nil => exact le_rfl
  | cons d ds ih => exact le_trans (by omega) (ih (n * 10 + d.val))

theorem foldl_push_dropped {g : Gathered} (dropped : g.dropped ≠ 0) (ds : Digits) :
    ds.foldl push g = { g with dropped := g.dropped + ds.length } := by
  induction ds generalizing g with
  | nil => rfl
  | cons d ds ih =>
      have out : push g d = { g with dropped := g.dropped + 1 } := if_neg fun fits => dropped fits.1
      rw [List.foldl_cons, out, ih (Nat.succ_ne_zero _), List.length_cons]
      simp only [Nat.add_assoc, Nat.add_comm 1]

/-- Digits are left out if and only if their number has more than 64 bits. -/
theorem foldl_push_eq {n : Nat} (used : Nat) (ds : Digits) (fits : n < 0x10000000000000000) :
    (Digits.valueFrom n ds < 0x10000000000000000 ∧
        ds.foldl push ⟨n, used, 0⟩ = ⟨Digits.valueFrom n ds, used + ds.length, 0⟩) ∨
      (0x10000000000000000 ≤ Digits.valueFrom n ds ∧ (ds.foldl push ⟨n, used, 0⟩).dropped ≠ 0) := by
  induction ds generalizing n used with
  | nil => exact .inl ⟨fits, rfl⟩
  | cons d ds ih =>
      rw [List.foldl_cons, Digits.valueFrom_cons, List.length_cons]
      by_cases step : n * 10 + d.val < 0x10000000000000000
      · have taken : push ⟨n, used, 0⟩ d = ⟨n * 10 + d.val, used + 1, 0⟩ := if_pos ⟨rfl, step⟩
        rw [taken, Nat.add_comm ds.length, ← Nat.add_assoc]
        exact ih (used + 1) step
      · have out : push ⟨n, used, 0⟩ d = ⟨n, used, 1⟩ := if_neg fun fits => step fits.2
        have beyond := Digits.le_valueFrom (n * 10 + d.val) ds
        rw [out, foldl_push_dropped Nat.one_ne_zero]
        exact .inr ⟨by omega, Nat.succ_ne_zero _ ∘ (Nat.add_comm ..).trans⟩

section
variable {n : Nat} {ds : Digits} (first : n < 0x10000000000000000)
include first

theorem gathered_eq (fits : Digits.valueFrom n ds < 0x10000000000000000) :
    gathered n ds = ⟨Digits.valueFrom n ds, ds.length, 0⟩ := by
  rcases foldl_push_eq 0 ds first with ⟨-, eq⟩ | ⟨beyond, -⟩
  · rw [gathered, eq, Nat.zero_add]
  · omega

theorem dropped_gathered_eq_zero_iff :
    (gathered n ds).dropped = 0 ↔ Digits.valueFrom n ds < 0x10000000000000000 := by
  rcases foldl_push_eq 0 ds first with ⟨fits, eq⟩ | ⟨beyond, dropped⟩
  · rw [gathered, eq]
    exact iff_of_true rfl fits
  · exact iff_of_false dropped (by omega)

end

namespace Numeral

def whole (n : Numeral) : Nat := Digits.valueFrom n.first.val n.more

def integer? (n : Numeral) : Option Int :=
  match n.fraction, n.exponent with
  | none, none => some (if n.negative then -n.whole else n.whole)
  | _, _ => none

theorem first_lt (n : Numeral) : n.first.val < 0x10000000000000000 := by omega

end Numeral

theorem float?_ne_natural {negative : Bool} {significand : Nat} {exponent : Int} {u : UInt64} :
    float? negative significand exponent ≠ some (.natural u) := by
  intro natural
  obtain ⟨x, -, eq⟩ := Option.map_eq_some_iff.1 natural
  cases eq

theorem Exponent.number?_ne_natural {x : Exponent} {negative : Bool} {significand : Nat}
    {start : Int} {u : UInt64} : x.number? negative significand start ≠ some (.natural u) := by
  unfold Exponent.number?
  split
  · exact float?_ne_natural
  · split <;> simp

theorem integer_eq_natural_iff {negative : Bool} {n : Nat} (fits : n < 0x10000000000000000)
    {u : UInt64} : integer negative n = .natural u ↔ negative = false ∧ n = u.toNat := by
  unfold integer
  cases negative with
  | true =>
      refine iff_of_false ?_ (by simp)
      simp only [↓reduceIte]
      split <;> simp
  | false =>
      have toNat : (UInt64.ofNat n).toNat = n := UInt64.toNat_ofNat_of_lt' fits
      rw [if_neg Bool.false_ne_true, Number.natural.injEq, ← UInt64.toNat_inj, toNat]
      simp

theorem Numeral.number?_eq_natural_iff {n : Numeral} {u : UInt64} :
    n.number? = some (.natural u) ↔ n.negative = false ∧ n.integer? = some (u.toNat : Int) := by
  rw [number?, integer?]
  cases n.fraction with
  | some digits =>
      refine iff_of_false ?_ (by simp)
      cases n.exponent with
      | none => exact float?_ne_natural
      | some x => exact Exponent.number?_ne_natural
  | none =>
      cases n.exponent with
      | some x => exact iff_of_false Exponent.number?_ne_natural (by simp)
      | none =>
          have bound := u.toNat_lt
          simp only
          -- Digits that are too many for 64 bits make a floating-point number.
          by_cases fits : n.whole < 0x10000000000000000
          · rw [gathered_eq n.first_lt fits]
            simp only [↓reduceIte, Option.some.injEq]
            rw [← whole, integer_eq_natural_iff fits]
            cases n.negative <;> simp
          · rw [if_neg fun all => fits ((dropped_gathered_eq_zero_iff n.first_lt).1 all)]
            refine iff_of_false float?_ne_natural ?_
            rintro ⟨positive, same⟩
            rw [positive] at same
            simp only [Bool.false_eq_true, ↓reduceIte, Option.some.injEq, Nat.cast_inj] at same
            omega

def Exponent.exact (x : Exponent) : Int :=
  if x.down then -Digits.valueFrom x.first.val x.more else Digits.valueFrom x.first.val x.more

namespace Numeral

def fractionDigits (n : Numeral) : Digits :=
  match n.fraction with
  | none => []
  | some (d, ds) => d :: ds

def decimal (n : Numeral) : Decimal where
  coefficient := Digits.valueFrom n.whole n.fractionDigits
  exponent := n.exponent.elim 0 Exponent.exact - n.fractionDigits.length

/-- The number of an exact reading: an integer of 64 bits as it is, and for any other numeral the
binary64 number nearest to its decimal. -/
def exact (n : Numeral) : Number :=
  if n.fraction.isNone ∧ n.exponent.isNone ∧ n.whole < 0x10000000000000000 then
    integer n.negative n.whole
  else .float (.round n.negative n.decimal.value)

end Numeral

end LatencyGate.Json
