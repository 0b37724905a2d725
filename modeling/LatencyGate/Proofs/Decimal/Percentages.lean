import Mathlib
import LatencyGate.Decimal
import LatencyGate.Proofs.Decimal.Rounding

/-!
# Printed percentages are read back

The shortest decimal of a magnitude rounds to the magnitude by the way it is searched for. Each
layout spells the digits of that decimal without changing its value, a numeral is read as the decimal
it spells, and decimals are rounded once. So the text of a percentage is a numeral for this number.
-/

namespace LatencyGate

namespace Decimal

theorem value_exact (rank : Nat) : (exact rank).value = Binary64.magnitude rank := by
  unfold exact
  rw [value_eq, Binary64.magnitude_eq]
  split
  · rename_i n exponent
    rw [exponent]
    push_cast [Nat.pow_eq]
    simp
  · rename_i n exponent
    rw [exponent]
    push_cast [Nat.pow_eq]
    have ten : (10 : Rat) ^ (n + 1) = 5 ^ (n + 1) * 2 ^ (n + 1) := by
      rw [← mul_pow]
      norm_num
    rw [zpow_negSucc, zpow_negSucc, ten]
    field_simp

theorem roundRank_shortest (tie : Tie) (rank : Nat) :
    Binary64.roundRank (shortest tie rank).value = rank := by
  unfold shortest
  dsimp only
  cases found : (List.range 17).findSome? fun n =>
      (neighbours tie (Binary64.magnitude rank)
        (pointOf (Binary64.magnitude rank) - (n + 1 : Nat))).find? (readsBack rank) with
  | none => rw [Option.getD_none, value_exact, Binary64.roundRank_magnitude]
  | some d =>
      obtain ⟨n, -, near⟩ := List.exists_of_findSome?_eq_some found
      have back : readsBack rank d = true := List.find?_some near
      exact beq_iff_eq.1 back

end Decimal

namespace Decimal

variable {whole fraction tail : List Char} {e : Int}

theorem exponentOf?_digits {ds : List Char} (digit : ∀ c ∈ ds, c.isDigit = true) (some : ds ≠ []) :
    exponentOf? ('e' :: ds) = .some (Nat.ofDigitChars 10 ds 0 : Int) ∧
      exponentOf? ('e' :: '+' :: ds) = .some (Nat.ofDigitChars 10 ds 0 : Int) ∧
      exponentOf? ('e' :: '-' :: ds) = .some (-(Nat.ofDigitChars 10 ds 0 : Int)) := by
  have all : ds.all Char.isDigit = true := List.all_eq_true.2 digit
  refine ⟨?_, ?_, ?_⟩
  · cases ds with
    | nil => exact absurd rfl some
    | cons c cs =>
        have first := digit c List.mem_cons_self
        have minus : c ≠ '-' := by
          rintro rfl
          exact absurd first (by decide)
        have plus : c ≠ '+' := by
          rintro rfl
          exact absurd first (by decide)
        unfold exponentOf?
        simp only [true_or, ↓reduceIte]
        split
        · rename_i same
          exact absurd (List.cons.inj same).1 minus
        · rename_i same
          exact absurd (List.cons.inj same).1 plus
        · rw [if_pos ⟨some, all⟩]
          rfl
  · simp [exponentOf?, some, all]
  · simp [exponentOf?, some, all]

theorem exponentOf?_exponentText (layout : Layout) (exponent : Int) :
    exponentOf? (layout.exponentText exponent) = some exponent := by
  obtain ⟨bare, plus, minus⟩ :=
    exponentOf?_digits (fun _ => isDigit_of_mem_digits) (digits_ne_nil exponent.natAbs)
  rw [ofDigitChars_digits] at bare plus minus
  unfold Layout.exponentText
  dsimp only
  split
  · change exponentOf? ('e' :: '-' :: digits exponent.natAbs) = some exponent
    rw [minus]
    congr 1
    omega
  split
  · change exponentOf? ('e' :: '+' :: digits exponent.natAbs) = some exponent
    rw [plus]
    congr 1
    omega
  · change exponentOf? ('e' :: digits exponent.natAbs) = some exponent
    rw [bare]
    congr 1
    omega

theorem head_of_exponentOf? (exponent : exponentOf? tail = some e) :
    ∀ c ∈ tail.head?, c.isDigit = false ∧ c ≠ '.' := by
  intro c head
  cases tail with
  | nil => cases head
  | cons d ds =>
      obtain rfl : d = c := Option.some.inj head
      by_cases mark : d = 'e' ∨ d = 'E'
      · rcases mark with rfl | rfl <;> decide
      · simp [exponentOf?, mark] at exponent

theorem takeWhile_digits_append {ds : List Char} (digit : ∀ c ∈ ds, c.isDigit = true)
    (other : ∀ c ∈ tail.head?, c.isDigit = false) :
    (ds ++ tail).takeWhile Char.isDigit = ds ∧ (ds ++ tail).dropWhile Char.isDigit = tail := by
  have stops : tail.takeWhile Char.isDigit = [] ∧ tail.dropWhile Char.isDigit = tail := by
    cases tail with
    | nil => exact ⟨rfl, rfl⟩
    | cons c cs =>
        have := other c rfl
        simp [this]
  rw [List.takeWhile_append_of_pos digit, List.dropWhile_append_of_pos digit, stops.1, stops.2,
    List.append_nil]
  exact ⟨rfl, rfl⟩

theorem ofNumeral?_point (wholeDigits : ∀ c ∈ whole, c.isDigit = true) (nonempty : whole ≠ [])
    (fractionDigits : ∀ c ∈ fraction, c.isDigit = true) (exponent : exponentOf? tail = some e) :
    ofNumeral? (whole ++ '.' :: (fraction ++ tail)) =
      some ⟨Nat.ofDigitChars 10 (whole ++ fraction) 0, e - fraction.length⟩ := by
  have ends := head_of_exponentOf? exponent
  have point : ∀ c ∈ ('.' :: (fraction ++ tail)).head?, c.isDigit = false := by simp
  obtain ⟨left, right⟩ := takeWhile_digits_append wholeDigits point
  obtain ⟨left', right'⟩ := takeWhile_digits_append fractionDigits fun c head => (ends c head).1
  unfold ofNumeral?
  simp only [left, right, left', right', nonempty, false_and, ↓reduceIte, exponent, Option.map_some]

theorem ofNumeral?_whole (wholeDigits : ∀ c ∈ whole, c.isDigit = true) (nonempty : whole ≠ [])
    (exponent : exponentOf? tail = some e) :
    ofNumeral? (whole ++ tail) = some ⟨Nat.ofDigitChars 10 whole 0, e⟩ := by
  have ends := head_of_exponentOf? exponent
  obtain ⟨left, right⟩ := takeWhile_digits_append wholeDigits fun c head => (ends c head).1
  unfold ofNumeral?
  rw [left, right]
  split
  rename_i pair same
  split at same
  · exact absurd rfl (ends '.' rfl).2
  · cases same
    simp [nonempty, exponent]

theorem head_of_ofNumeral? {text : List Char} {d : Decimal} (numeral : ofNumeral? text = some d) :
    ∃ c cs, text = c :: cs ∧ (c.isDigit = true ∨ c = '.') := by
  cases text with
  | nil => cases numeral
  | cons c cs =>
      refine ⟨c, cs, rfl, ?_⟩
      by_contra! other
      have digit : ¬c.isDigit = true := other.1
      unfold ofNumeral? at numeral
      rw [List.takeWhile_cons_of_neg digit, List.dropWhile_cons_of_neg digit] at numeral
      split at numeral
      rename_i same
      split at same
      · rename_i point
        exact other.2 (List.cons.inj point).1
      · cases same
        simp at numeral

end Decimal

namespace Layout

theorem dropTrailingZeros_append (ds : List Char) :
    ∃ n, ds = dropTrailingZeros ds ++ List.replicate n '0' := by
  have zeros : ∀ c ∈ ds.reverse.takeWhile (· == '0'), c = '0' := by
    intro c member
    have zero : (c == '0') = true := List.mem_takeWhile_imp (p := (· == '0')) member
    exact beq_iff_eq.1 zero
  have split := List.takeWhile_append_dropWhile (p := (· == '0')) (l := ds.reverse)
  rw [List.eq_replicate_of_mem zeros] at split
  refine ⟨(ds.reverse.takeWhile (· == '0')).length, ?_⟩
  rw [← List.reverse_inj, List.reverse_append, List.reverse_replicate, dropTrailingZeros,
    List.reverse_reverse, split]

variable {ds : List Char} {point : Int}

/-- The text is a numeral for the number that these digits make with the point at this place. -/
def Spells (ds : List Char) (point : Int) (text : List Char) : Prop :=
  ∃ d, Decimal.ofNumeral? text = some d ∧
    d.value = (Nat.ofDigitChars 10 ds 0 : Rat) * 10 ^ (point - ds.length)

theorem isDigit_of_mem_zeros {n : Nat} {c : Char} (member : c ∈ List.replicate n '0') :
    c.isDigit = true := by
  rw [List.eq_of_mem_replicate member]
  rfl

theorem forall_mem_append_isDigit {cs ds : List Char} (left : ∀ c ∈ cs, c.isDigit = true)
    (right : ∀ c ∈ ds, c.isDigit = true) : ∀ c ∈ cs ++ ds, c.isDigit = true := by
  intro c member
  rcases List.mem_append.1 member with first | second
  · exact left c first
  · exact right c second

theorem positional_spells (digit : ∀ c ∈ ds, c.isDigit = true) :
    Spells ds point (positional ds point) := by
  have bare : Decimal.exponentOf? [] = some 0 := rfl
  have zeros (n : Nat) : ∀ c ∈ List.replicate n '0', c.isDigit = true :=
    fun _ => isDigit_of_mem_zeros
  -- The point stands before all digits, behind all of them, or among them.
  unfold positional
  split
  · rename_i before
    have numeral := Decimal.ofNumeral?_point (zeros 1) (List.cons_ne_nil '0' [])
      (forall_mem_append_isDigit (zeros (-point).toNat) digit) bare
    rw [List.append_nil] at numeral
    refine ⟨_, numeral, ?_⟩
    have places : (0 : Int) - ((List.replicate (-point).toNat '0' ++ ds).length : Nat) =
        point - ds.length := by
      rw [List.length_append, List.length_replicate]
      omega
    rw [Decimal.value_eq, places, Nat.ofDigitChars_append, Nat.ofDigitChars_append,
      Nat.ofDigitChars_replicate_zero]
    simp [Nat.ofDigitChars_cons, Nat.ofDigitChars_nil]
  split
  · rename_i after behind
    have nonempty : ds ++ List.replicate (point - ds.length).toNat '0' ≠ [] := by
      intro empty
      have := congrArg List.length empty
      simp only [List.length_append, List.length_replicate, List.length_nil] at this
      omega
    have numeral := Decimal.ofNumeral?_point
      (forall_mem_append_isDigit digit (zeros (point - ds.length).toNat)) nonempty (zeros 1) bare
    refine ⟨_, numeral, ?_⟩
    obtain ⟨n, shift⟩ := Int.eq_ofNat_of_zero_le (by omega : 0 ≤ point - ds.length)
    rw [Decimal.value_eq, Nat.ofDigitChars_append, Nat.ofDigitChars_append,
      Nat.ofDigitChars_replicate_zero, shift]
    simp
    ring
  · rename_i after within
    have digits := digit
    rw [← List.take_append_drop point.toNat ds] at digits
    have nonempty : ds.take point.toNat ≠ [] := by
      intro empty
      have := congrArg List.length empty
      simp only [List.length_take, List.length_nil] at this
      omega
    have numeral := Decimal.ofNumeral?_point
      (fun c member => digits c (List.mem_append_left _ member)) nonempty
      (fun c member => digits c (List.mem_append_right _ member)) bare
    rw [List.append_nil] at numeral
    refine ⟨_, numeral, ?_⟩
    have places : (0 : Int) - ((ds.drop point.toNat).length : Nat) = point - ds.length := by
      rw [List.length_drop]
      omega
    rw [Decimal.value_eq, List.take_append_drop, places]

theorem scientific_spells (layout : Layout) (digit : ∀ c ∈ ds, c.isDigit = true)
    (nonempty : ds ≠ []) : Spells ds point (layout.scientific ds (point - 1)) := by
  have exponent := Decimal.exponentOf?_exponentText layout (point - 1)
  unfold scientific
  cases ds with
  | nil => exact absurd rfl nonempty
  | cons c cs =>
      cases cs with
      | nil =>
          have numeral := Decimal.ofNumeral?_whole digit nonempty exponent
          refine ⟨_, numeral, ?_⟩
          rw [Decimal.value_eq]
          rfl
      | cons c' cs =>
          have first : ∀ d ∈ [c], d.isDigit = true := by
            simpa using digit c List.mem_cons_self
          have numeral := Decimal.ofNumeral?_point first (List.cons_ne_nil c [])
            (fun d member => digit d (List.mem_cons_of_mem c member)) exponent
          refine ⟨_, numeral, ?_⟩
          have places : point - 1 - ((c' :: cs).length : Nat) = point - (c :: c' :: cs).length := by
            simp only [List.length_cons]
            omega
          rw [Decimal.value_eq, places]
          rfl

/-- The text of a magnitude in any layout is a numeral that rounds to it. -/
theorem exists_ofNumeral?_magnitude (layout : Layout) (rank : Nat) :
    ∃ d, Decimal.ofNumeral? (layout.magnitude rank) = some d ∧
      Binary64.roundRank d.value = rank := by
  unfold magnitude
  split
  · rename_i zero
    refine ⟨⟨0, -1⟩, rfl, ?_⟩
    rw [zero, Decimal.value_eq, Nat.cast_zero, zero_mul, Binary64.roundRank_zero]
  rename_i nonzero
  dsimp only
  set d := Decimal.shortest layout.tie rank
  have back : Binary64.roundRank d.value = rank := Decimal.roundRank_shortest layout.tie rank
  obtain ⟨n, split⟩ := dropTrailingZeros_append (digits d.coefficient)
  set ds := dropTrailingZeros (digits d.coefficient)
  have digit : ∀ c ∈ ds, c.isDigit = true := fun c member => isDigit_of_mem_digits
    (n := d.coefficient) (split ▸ List.mem_append_left _ member)
  have coefficient : d.coefficient = 10 ^ n * Nat.ofDigitChars 10 ds 0 := by
    rw [← ofDigitChars_digits d.coefficient, split, Nat.ofDigitChars_append,
      Nat.ofDigitChars_replicate_zero]
  -- The zeros that were dropped are places of the exponent now.
  have value : d.value = (Nat.ofDigitChars 10 ds 0 : Rat) * 10 ^ (d.point - ds.length) := by
    have places : d.point - ds.length = n + d.exponent := by
      unfold Decimal.point
      rw [split, List.length_append, List.length_replicate]
      omega
    rw [Decimal.value_eq, places, coefficient, zpow_add₀ (by norm_num), zpow_natCast]
    push_cast
    ring
  have nonempty : ds ≠ [] := by
    intro empty
    rw [value, empty] at back
    simp [Nat.ofDigitChars_nil, Binary64.roundRank_zero] at back
    exact nonzero back.symm
  have spelled : Spells ds d.point (if layout.least ≤ d.point - 1 ∧ d.point - 1 ≤ layout.greatest
      then positional ds d.point else layout.scientific ds (d.point - 1)) := by
    split
    · exact positional_spells digit
    · exact scientific_spells layout digit nonempty
  obtain ⟨d', numeral, same⟩ := spelled
  exact ⟨d', numeral, by rw [same, ← value, back]⟩

end Layout

namespace Binary64

theorem toLower_of_isDigit {c : Char} (digit : c.isDigit = true) : c.toLower = c := by
  have bounds := toNat_of_isDigit digit
  have val : c.val.toNat = c.toNat := rfl
  rw [Char.toLower, dif_neg]
  simp only [UInt32.le_iff_toNat_le, ge_iff_le, val]
  intro upper
  exact absurd upper.1 (by simp; omega)

theorem ofUnsignedNumeral?_of_ofNumeral? {text : List Char} {d : Decimal} (negative : Bool)
    (numeral : Decimal.ofNumeral? text = some d) :
    ofUnsignedNumeral? negative text = some (.round negative d.value) := by
  obtain ⟨c, cs, rfl, first⟩ := Decimal.head_of_ofNumeral? numeral
  have lower : c.toLower = c := by
    rcases first with digit | rfl
    · exact toLower_of_isDigit digit
    · rfl
  have other (word : String) (w : Char) (head : word.toList.head? = some w)
      (letter : w.isDigit = false) (letter' : w ≠ '.') :
      String.ofList ((c :: cs).map Char.toLower) ≠ word := by
    rintro rfl
    rw [String.toList_ofList, List.map_cons, List.head?_cons, lower] at head
    obtain rfl := Option.some.inj head
    rcases first with digit | rfl
    · rw [digit] at letter
      nomatch letter
    · exact letter' rfl
  have nan := other "nan" 'n' rfl rfl (by decide)
  have inf := other "inf" 'i' rfl rfl (by decide)
  have infinity := other "infinity" 'i' rfl rfl (by decide)
  unfold ofUnsignedNumeral?
  dsimp only
  rw [if_neg nan, if_neg (not_or.2 ⟨inf, infinity⟩), numeral, Option.map_some,
    Decimal.toBinary64_eq_round]

theorem ofNumeral?_percentText (x : Binary64) : ofNumeral? x.percentText = some x := by
  cases x with
  | nan => decide +kernel
  | infinity negative => cases negative <;> decide +kernel
  | finite negative rank =>
      obtain ⟨d, numeral, back⟩ := Layout.percent.exists_ofNumeral?_magnitude rank
      have read := ofUnsignedNumeral?_of_ofNumeral? negative numeral
      have rounded : Binary64.round negative d.value = .finite negative rank := by
        have finite : roundRank d.value < infiniteRank := by rw [back]; exact rank.isLt
        rw [Binary64.round, dif_pos finite]
        simp only [back]
      rw [rounded] at read
      unfold ofNumeral? percentText Layout.finite
      rw [String.toList_ofList]
      cases negative with
      | true => exact read
      | false =>
          obtain ⟨c, cs, text, first⟩ := Decimal.head_of_ofNumeral? numeral
          rw [text] at read ⊢
          have unsigned : c ≠ '-' ∧ c ≠ '+' := by
            rcases first with digit | rfl
            · constructor <;> rintro rfl <;> exact absurd digit (by decide)
            · decide
          simp only [Bool.false_eq_true, ↓reduceIte, List.nil_append]
          split
          · rename_i same
            exact absurd (List.cons.inj same).1 unsigned.1
          · rename_i same
            exact absurd (List.cons.inj same).1 unsigned.2
          · exact read

end Binary64

end LatencyGate
