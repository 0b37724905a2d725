import Mathlib
import LatencyGate.Json.Printer
import LatencyGate.Json.Reader.Number
import LatencyGate.Decimal
import LatencyGate.Proofs.Text.Utf8

namespace LatencyGate.Json.Reader

def Ends (rest : Bytes) : Prop :=
  ∀ b ∈ rest.head?, b = byte ',' ∨ b = byte ']' ∨ b = byte '\x7d'

theorem ends_nil : Ends [] := nofun

theorem ends_comma (rest : Bytes) : Ends (byte ',' :: rest) := by
  simp [Ends]

theorem ends_bracket (rest : Bytes) : Ends (byte ']' :: rest) := by
  simp [Ends]

theorem ends_brace (rest : Bytes) : Ends (byte '\x7d' :: rest) := by
  simp [Ends]

def digitValue (c : Char) : Nat := c.toNat - '0'.toNat

theorem ascii_of_isDigit {c : Char} (digit : c.isDigit = true) : c.toNat < 128 := by
  have := toNat_of_isDigit digit
  omega

theorem digit?_byte {c : Char} (digit : c.isDigit = true) :
    digit? (byte c) = some (digitValue c) := by
  have toNat := Utf8.toNat_byte (ascii_of_isDigit digit)
  have bounds := toNat_of_isDigit digit
  have range : 0x30 ≤ byte c ∧ byte c ≤ 0x39 := by
    rw [UInt8.le_iff_toNat_le, UInt8.le_iff_toNat_le, toNat]
    exact bounds
  rw [digit?, if_pos range, toNat]
  rfl

theorem digit?_of_ends {b : UInt8} {rest : Bytes} (ends : Ends (b :: rest)) : digit? b = none := by
  rcases ends b rfl with rfl | rfl | rfl <;> rfl

theorem le_ofDigitChars (cs : List Char) (n : Nat) : n ≤ Nat.ofDigitChars 10 cs n := by
  induction cs generalizing n with
  | nil => exact le_rfl
  | cons c cs ih =>
      rw [Nat.ofDigitChars_cons]
      exact le_trans (by omega) (ih _)

theorem digitValue_head_ne_zero {n : Nat} (positive : 0 < n) {c : Char} {cs : List Char}
    (eq : digits n = c :: cs) : digitValue c ≠ 0 := by
  unfold digits at eq
  induction n using Nat.base_induction 10 (by norm_num) generalizing cs with
  | single m small =>
      rw [Nat.toDigits_of_lt_base small] at eq
      obtain ⟨rfl, -⟩ := List.cons.inj eq
      have value : digitValue m.digitChar = m := Nat.toNat_digitChar_sub_48_of_lt_ten small
      rw [value]
      exact positive.ne'
  | digit m k small leading ih =>
      rw [← Nat.toDigits_append_toDigits (by norm_num) leading small] at eq
      cases digits_m : Nat.toDigits 10 m with
      | nil => exact absurd digits_m Nat.toDigits_ne_nil
      | cons d ds =>
          rw [digits_m, List.cons_append] at eq
          obtain ⟨rfl, -⟩ := List.cons.inj eq
          exact ih leading digits_m

theorem digits_eq_cons (n : Nat) : ∃ c cs, digits n = c :: cs ∧ c.isDigit = true ∧
    (∀ d ∈ cs, Char.isDigit d = true) ∧ Nat.ofDigitChars 10 cs (digitValue c) = n ∧
    (digitValue c = 0 → cs = []) := by
  have all := fun c => isDigit_of_mem_digits (n := n) (c := c)
  have value := ofDigitChars_digits n
  cases eq : digits n with
  | nil => exact absurd eq Nat.toDigits_ne_nil
  | cons c cs =>
      rw [eq] at all value
      rw [Nat.ofDigitChars_cons, Nat.mul_zero, Nat.zero_add] at value
      refine ⟨c, cs, rfl, all c List.mem_cons_self,
        fun d member => all d (List.mem_cons_of_mem _ member), value, fun zero => ?_⟩
      rcases Nat.eq_zero_or_pos n with rfl | positive
      · rw [digits, Nat.toDigits_zero] at eq
        exact (List.cons.inj eq).2.symm
      · exact absurd zero (digitValue_head_ne_zero positive eq)

theorem encode_digit_cons {c : Char} (digit : c.isDigit = true) (cs : List Char) :
    Utf8.encode (c :: cs) = byte c :: Utf8.encode cs := by
  rw [Utf8.encode_cons, Utf8.utf8EncodeChar_ascii (ascii_of_isDigit digit)]
  rfl

theorem gatherFrom_digits {cs : List Char} {rest : Bytes} (used significand : Nat)
    (all : ∀ c ∈ cs, Char.isDigit c = true) (ends : Ends rest)
    (fits : Nat.ofDigitChars 10 cs significand < 0x10000000000000000) :
    gatherFrom ⟨significand, used, 0⟩ (Utf8.encode cs ++ rest) =
      (⟨Nat.ofDigitChars 10 cs significand, used + cs.length, 0⟩, rest) := by
  induction cs generalizing significand used with
  | nil =>
      cases rest with
      | nil => rfl
      | cons b rest =>
          rw [Utf8.encode_nil, List.nil_append, gatherFrom, digit?_of_ends ends]
          rfl
  | cons c cs ih =>
      have digit := all c List.mem_cons_self
      rw [Nat.ofDigitChars_cons] at fits ⊢
      have step : significand * 10 + digitValue c < 0x10000000000000000 := by
        have := (le_ofDigitChars cs _).trans_lt fits
        unfold digitValue
        omega
      rw [encode_digit_cons digit, List.cons_append, gatherFrom, digit?_byte digit]
      simp only [step, and_self, ↓reduceIte]
      rw [mul_comm, digitValue, ih _ _ (fun d member => all d (List.mem_cons_of_mem _ member)) fits,
        List.length_cons, Nat.add_assoc, Nat.add_comm 1]

theorem run_leadingDigit {cs : List Char} {first : Nat} {rest : Bytes} (ends : Ends rest)
    (leading : first = 0 → cs = []) :
    (leadingDigit first).run (Utf8.encode cs ++ rest) = .ok ((), Utf8.encode cs ++ rest) := by
  by_cases zero : first = 0
  · rw [leading zero]
    cases rest with
    | nil => rfl
    | cons b rest =>
        have other := digit?_of_ends ends
        simp [leadingDigit, run_bind, peek?, Utf8.encode_nil, other, run_pure]
  · cases eq : Utf8.encode cs ++ rest with
    | nil => rfl
    | cons b rest => simp [leadingDigit, run_bind, peek?, zero, run_pure]

theorem run_numberFrom (negative : Bool) {n : Nat} {c : Char} {cs : List Char} {rest : Bytes}
    (fits : n < 0x10000000000000000) (ends : Ends rest)
    (all : ∀ d ∈ cs, Char.isDigit d = true) (value : Nat.ofDigitChars 10 cs (digitValue c) = n)
    (leading : digitValue c = 0 → cs = []) :
    (numberFrom negative (digitValue c)).run (Utf8.encode cs ++ rest) =
      .ok (integer negative n, rest) := by
  have gathered : (gather (digitValue c)).run (Utf8.encode cs ++ rest) =
      .ok (⟨n, 0 + cs.length, 0⟩, rest) := by
    rw [← value]
    exact congrArg Except.ok (gatherFrom_digits 0 _ all ends (by rw [value]; exact fits))
  rw [numberFrom, run_bind, run_leadingDigit ends leading]
  dsimp only
  rw [run_bind, gathered]
  dsimp only
  -- Neither a point nor the mark of an exponent follows.
  cases rest with
  | nil => rfl
  | cons b rest => rcases ends b rfl with rfl | rfl | rfl <;> rfl

end LatencyGate.Json.Reader
