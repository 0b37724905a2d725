import Mathlib
import LatencyGate.Proofs.Decimal.Percentages
import LatencyGate.Proofs.Json.Exact
import LatencyGate.Proofs.Json.Values

namespace LatencyGate.Json

open Reader

def Digits.ofChars (cs : List Char) : Digits := cs.map fun c => digit (digitValue c)

theorem digitByte_digit {c : Char} (isDigit : c.isDigit = true) :
    digitByte (digit (digitValue c)) = byte c := by
  have member := mem_digitChars isDigit
  fin_cases member <;> rfl

theorem digit_val {c : Char} (isDigit : c.isDigit = true) :
    (digit (digitValue c)).val = digitValue c := by
  have member := mem_digitChars isDigit
  fin_cases member <;> rfl

theorem digit_eq_zero {c : Char} (isDigit : c.isDigit = true) (zero : digit (digitValue c) = 0) :
    c = '0' := by
  have member := mem_digitChars isDigit
  revert zero
  fin_cases member <;> decide

section
variable {cs : List Char} (digits : ∀ c ∈ cs, c.isDigit = true)
include digits

theorem bytes_ofChars : Digits.bytes (Digits.ofChars cs) = Utf8.encode cs := by
  induction cs with
  | nil => rfl
  | cons c cs ih =>
      obtain ⟨first, others⟩ := List.forall_mem_cons.1 digits
      rw [encode_digit_cons first, ← ih others, ← digitByte_digit first]
      rfl

theorem valueFrom_ofChars (n : Nat) :
    Digits.valueFrom n (Digits.ofChars cs) = Nat.ofDigitChars 10 cs n := by
  induction cs generalizing n with
  | nil => rfl
  | cons c cs ih =>
      obtain ⟨first, others⟩ := List.forall_mem_cons.1 digits
      have eq : Digits.ofChars (c :: cs) = digit (digitValue c) :: Digits.ofChars cs := rfl
      rw [eq, Digits.valueFrom_cons, ih others, digit_val first, Nat.ofDigitChars_cons, mul_comm]
      rfl

end

structure WholeText (first : Char) (more : List Char) : Prop where
  first_digit : first.isDigit = true
  more_digits : ∀ c ∈ more, c.isDigit = true
  leading : first = '0' → more = []

theorem wholeText_digits (n : Nat) : ∃ c cs, digits n = c :: cs ∧ WholeText c cs := by
  obtain ⟨c, cs, eq, first, more, -, leading⟩ := digits_eq_cons n
  refine ⟨c, cs, eq, first, more, ?_⟩
  rintro rfl
  exact leading rfl

structure ExponentText (x : Option Exponent) (text : List Char) : Prop where
  bytes : Numeral.exponentBytes x = Utf8.encode text
  exact_eq : Decimal.exponentOf? text = some (x.elim 0 Exponent.exact)

theorem exponentText_none : ExponentText none [] := ⟨rfl, rfl⟩

def exponentSign (layout : Layout) (e : Int) : Option Bool :=
  if e < 0 then some true else if layout.plus then some false else none

theorem signBytes_exponentSign (layout : Layout) (e : Int) :
    Exponent.signBytes (exponentSign layout e) =
      Utf8.encode (if e < 0 then ['-'] else if layout.plus then ['+'] else []) := by
  unfold exponentSign
  split
  · rfl
  split <;> rfl

theorem exponentSign_eq_iff (layout : Layout) (e : Int) :
    (exponentSign layout e == some true) = true ↔ e < 0 := by
  unfold exponentSign
  split
  · rename_i negative
    simp [negative]
  · rename_i positive
    split <;> simp [positive]

theorem exponentText_some (layout : Layout) (e : Int) :
    ∃ x : Exponent, ExponentText (some x) (layout.exponentText e) := by
  obtain ⟨c, cs, eq, first, more, value, -⟩ := digits_eq_cons e.natAbs
  let x : Exponent := ⟨false, exponentSign layout e, digit (digitValue c), Digits.ofChars cs⟩
  have valued : Digits.valueFrom x.first.val x.more = e.natAbs := by
    rw [valueFrom_ofChars more, digit_val first, value]
  have behind : digitByte x.first :: Digits.bytes x.more = Utf8.encode (digits e.natAbs) := by
    rw [eq, encode_digit_cons first, digitByte_digit first, bytes_ofChars more]
  refine ⟨x, ?_, ?_⟩
  · rw [Layout.exponentText, List.cons_append, Utf8.encode_cons, Utf8.encode_append, ← behind,
      ← signBytes_exponentSign]
    rfl
  · rw [Decimal.exponentOf?_exponentText, Option.elim_some, Exponent.exact, valued]
    by_cases negative : e < 0
    · rw [Exponent.down, if_pos ((exponentSign_eq_iff layout e).2 negative)]
      congr 1
      omega
    · rw [Exponent.down, if_neg (mt (exponentSign_eq_iff layout e).1 negative)]
      congr 1
      omega

theorem Numeral.bytes_eq (n : Numeral) :
    n.bytes = (if n.negative then [byte '-'] else []) ++ digitByte n.first :: n.tail := by
  unfold Numeral.bytes
  split <;> rfl

/-- With either sign there is a numeral with these bytes behind the sign. It denotes the decimal of
the text and has a fraction or an exponent. -/
def IsDecimalText (text : List Char) : Prop :=
  ∀ negative : Bool, ∃ n : Numeral, n.negative = negative ∧
    digitByte n.first :: n.tail = Utf8.encode text ∧ Decimal.ofNumeral? text = some n.decimal ∧
    (n.fraction.isSome ∨ n.exponent.isSome)

section
variable {first : Char} {more fraction tail : List Char} (whole : WholeText first more)
include whole

theorem leading_ofChars (zero : digit (digitValue first) = 0) : Digits.ofChars more = [] := by
  rw [whole.leading (digit_eq_zero whole.first_digit zero)]
  rfl

theorem forall_mem_whole : ∀ c ∈ first :: more, c.isDigit = true :=
  List.forall_mem_cons.2 ⟨whole.first_digit, whole.more_digits⟩

theorem valueFrom_whole :
    Digits.valueFrom (digit (digitValue first)).val (Digits.ofChars more) =
      Nat.ofDigitChars 10 (first :: more) 0 := by
  rw [valueFrom_ofChars whole.more_digits, digit_val whole.first_digit, Nat.ofDigitChars_cons,
    Nat.mul_zero, Nat.zero_add]
  rfl

theorem encode_whole (rest : List Char) :
    Utf8.encode (first :: more ++ rest) =
      digitByte (digit (digitValue first)) :: (Digits.bytes (Digits.ofChars more) ++
        Utf8.encode rest) := by
  rw [List.cons_append, encode_digit_cons whole.first_digit, Utf8.encode_append,
    digitByte_digit whole.first_digit, bytes_ofChars whole.more_digits]

theorem isDecimalText_point (digits : ∀ c ∈ fraction, c.isDigit = true) (nonempty : fraction ≠ [])
    {x : Option Exponent} (exponent : ExponentText x tail) :
    IsDecimalText (first :: more ++ '.' :: (fraction ++ tail)) := by
  intro negative
  obtain ⟨d, ds, rfl⟩ := List.exists_cons_of_ne_nil nonempty
  let n : Numeral := ⟨negative, digit (digitValue first), Digits.ofChars more, leading_ofChars whole,
    some (digit (digitValue d), Digits.ofChars ds), x⟩
  have point : Utf8.encode ('.' :: (d :: ds ++ tail)) =
      byte '.' :: (Digits.bytes (Digits.ofChars (d :: ds)) ++ Utf8.encode tail) := by
    rw [bytes_ofChars digits, ← Utf8.encode_append]
    rfl
  refine ⟨n, rfl, ?_, ?_, .inl rfl⟩
  · rw [encode_whole whole, point, ← exponent.bytes]
    rfl
  · rw [Decimal.ofNumeral?_point (forall_mem_whole whole) (List.cons_ne_nil _ _) digits
      exponent.exact_eq, Nat.ofDigitChars_append, ← valueFrom_whole whole, ← valueFrom_ofChars digits]
    have places : (Digits.ofChars (d :: ds)).length = (d :: ds).length := List.length_map _
    rw [← places]
    rfl

theorem isDecimalText_whole {x : Exponent} (exponent : ExponentText (some x) tail) :
    IsDecimalText (first :: more ++ tail) := by
  intro negative
  let n : Numeral := ⟨negative, digit (digitValue first), Digits.ofChars more, leading_ofChars whole,
    none, some x⟩
  refine ⟨n, rfl, ?_, ?_, .inr rfl⟩
  · rw [encode_whole whole, ← exponent.bytes]
    rfl
  · rw [Decimal.ofNumeral?_whole (forall_mem_whole whole) (List.cons_ne_nil _ _) exponent.exact_eq,
      ← valueFrom_whole whole]
    exact congrArg (fun e : Int => some (⟨_, e⟩ : Decimal)) (sub_zero _).symm

end

/-! ## Layouts -/

section
variable {layout : Layout} {c : Char} {cs : List Char} {point : Int}

theorem isDecimalText_positional (digits : ∀ d ∈ c :: cs, d.isDigit = true) (leading : c ≠ '0') :
    IsDecimalText (Layout.positional (c :: cs) point) := by
  obtain ⟨first, more⟩ := List.forall_mem_cons.1 digits
  have zeros (n : Nat) : ∀ c ∈ List.replicate n '0', c.isDigit = true :=
    fun _ => Layout.isDigit_of_mem_zeros
  unfold Layout.positional
  split
  · have whole : WholeText '0' [] := ⟨rfl, nofun, fun _ => rfl⟩
    have text := isDecimalText_point whole
      (Layout.forall_mem_append_isDigit (zeros (-point).toNat) digits) (by simp) exponentText_none
    rwa [List.append_nil] at text
  split
  · have whole : WholeText c (cs ++ List.replicate (point - (c :: cs).length).toNat '0') :=
      ⟨first, Layout.forall_mem_append_isDigit more (zeros _), fun zero => absurd zero leading⟩
    have text := isDecimalText_point whole (zeros 1) (by simp) exponentText_none
    rwa [List.append_nil] at text
  · rename_i positive within
    obtain ⟨n, places⟩ := Int.eq_ofNat_of_zero_le (by omega : 0 ≤ point - 1)
    obtain rfl : point = (n + 1 : Nat) := by omega
    have split : (n + 1) < (c :: cs).length := by omega
    have whole : WholeText c (cs.take n) :=
      ⟨first, fun d member => more d (List.mem_of_mem_take member), fun zero => absurd zero leading⟩
    have text := isDecimalText_point whole
      (fun d member => more d (List.mem_of_mem_drop (i := n) member))
      (by simp only [ne_eq, List.drop_eq_nil_iff, not_le]; simpa using split) exponentText_none
    rwa [List.append_nil] at text

theorem isDecimalText_scientific (digits : ∀ d ∈ c :: cs, d.isDigit = true) (e : Int) :
    IsDecimalText (layout.scientific (c :: cs) e) := by
  obtain ⟨first, more⟩ := List.forall_mem_cons.1 digits
  obtain ⟨x, exponent⟩ := exponentText_some layout e
  have whole : WholeText c [] := ⟨first, nofun, fun _ => rfl⟩
  cases cs with
  | nil => exact isDecimalText_whole whole exponent
  | cons d ds =>
      have text := isDecimalText_point whole more (List.cons_ne_nil d ds) exponent
      simpa [Layout.scientific] using text

theorem dropTrailingZeros_digits {n : Nat} (positive : 0 < n) :
    ∃ c cs, Layout.dropTrailingZeros (digits n) = c :: cs ∧ c ≠ '0' ∧
      ∀ d ∈ c :: cs, d.isDigit = true := by
  obtain ⟨zeros, split⟩ := Layout.dropTrailingZeros_append (digits n)
  have all : ∀ d ∈ Layout.dropTrailingZeros (digits n), d.isDigit = true := fun d member =>
    isDigit_of_mem_digits (n := n) (split ▸ List.mem_append_left _ member)
  cases dropped : Layout.dropTrailingZeros (digits n) with
  | nil =>
      have value := ofDigitChars_digits n
      rw [split, dropped, List.nil_append, Nat.ofDigitChars_replicate_zero] at value
      omega
  | cons c cs =>
      rw [dropped] at split all
      refine ⟨c, cs, rfl, ?_, all⟩
      rintro rfl
      exact digitValue_head_ne_zero positive split rfl

theorem isDecimalText_magnitude (layout : Layout) (rank : Nat) :
    IsDecimalText (layout.magnitude rank) := by
  unfold Layout.magnitude
  split
  · have whole : WholeText '0' [] := ⟨rfl, nofun, fun _ => rfl⟩
    have zero : ∀ c ∈ ['0'], c.isDigit = true := by simp
    exact isDecimalText_point whole zero (List.cons_ne_nil _ _) exponentText_none
  rename_i nonzero
  have positive : 0 < (Decimal.shortest layout.tie rank).coefficient := by
    refine Nat.pos_of_ne_zero fun zero => nonzero ?_
    rw [← Decimal.roundRank_shortest layout.tie rank, Decimal.value_eq, zero, Nat.cast_zero,
      zero_mul, Binary64.roundRank_zero]
  obtain ⟨c, cs, eq, leading, digits⟩ := dropTrailingZeros_digits positive
  dsimp only
  rw [eq]
  split
  · exact isDecimalText_positional digits leading
  · exact isDecimalText_scientific digits _

end

/-! ## Numbers -/

def Number.IsFinite : Number → Prop
  | .float x => x.isFinite
  | _ => True

theorem exact_of_isInteger {n : Numeral} (fraction : n.fraction = none) (exponent : n.exponent = none)
    (fits : n.whole < 0x10000000000000000) : n.exact = integer n.negative n.whole :=
  if_pos ⟨by rw [fraction]; rfl, by rw [exponent]; rfl, fits⟩

theorem exact_of_isSome {n : Numeral} (parts : n.fraction.isSome ∨ n.exponent.isSome) :
    n.exact = .float (.round n.negative n.decimal.value) := by
  refine if_neg ?_
  rintro ⟨fraction, exponent, -⟩
  rw [Option.isNone_iff_eq_none] at fraction exponent
  rw [fraction, exponent] at parts
  rcases parts with absurd | absurd <;> cases absurd

theorem exists_integer (negative : Bool) {n : Nat} (fits : n < 0x10000000000000000) :
    ∃ m : Numeral, m.bytes = (if negative then [byte '-'] else []) ++ Utf8.encode (digits n) ∧
      m.exact = integer negative n := by
  obtain ⟨c, cs, eq, whole⟩ := wholeText_digits n
  let m : Numeral := ⟨negative, digit (digitValue c), Digits.ofChars cs, leading_ofChars whole,
    none, none⟩
  have value : m.whole = n := by
    rw [← ofDigitChars_digits n, eq]
    exact valueFrom_whole whole
  have tail : digitByte m.first :: m.tail = Utf8.encode (c :: cs) := by
    have encoded := encode_whole whole []
    rw [List.append_nil] at encoded
    rw [encoded]
    rfl
  refine ⟨m, ?_, ?_⟩
  · rw [Numeral.bytes_eq, tail, eq]
  · rw [exact_of_isInteger rfl rfl (by rwa [value]), value]

theorem exists_numeral {n : Number} (finite : n.IsFinite) :
    ∃ m : Numeral, m.bytes = Utf8.encode n.chars ∧ m.exact = n := by
  cases n with
  | natural n =>
      obtain ⟨m, bytes, exact_eq⟩ := exists_integer false n.toNat_lt
      refine ⟨m, bytes, ?_⟩
      rw [exact_eq]
      exact congrArg Number.natural (UInt64.ofNat_toNat)
  | negSucc n =>
      obtain ⟨m, bytes, exact_eq⟩ := exists_integer true (n := n.val + 1) (by omega)
      refine ⟨m, bytes, ?_⟩
      have range : 0 < n.val + 1 ∧ n.val + 1 ≤ 0x8000000000000000 := by omega
      rw [exact_eq, integer, if_pos rfl, dif_pos range]
      rfl
  | float x =>
      cases x with
      | nan => cases finite
      | infinity negative => cases finite
      | finite negative rank =>
          obtain ⟨m, sign, tail, numeral, parts⟩ :=
            isDecimalText_magnitude Layout.json rank negative
          obtain ⟨d, numeral', back⟩ := Layout.exists_ofNumeral?_magnitude Layout.json rank
          obtain rfl := Option.some.inj (numeral.symm.trans numeral')
          refine ⟨m, ?_, ?_⟩
          · rw [Numeral.bytes_eq, tail, sign]
            cases negative <;> rfl
          · have inRange : Binary64.roundRank m.decimal.value < infiniteRank := by
              rw [back]
              exact rank.isLt
            rw [exact_of_isSome parts, sign, Binary64.round, dif_pos inRange]
            congr 2
            exact Fin.ext back

end LatencyGate.Json
