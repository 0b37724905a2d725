import LatencyGate.Decimal
import LatencyGate.Proofs.Binary64.Rounding
import LatencyGate.Proofs.Json.Numbers

namespace LatencyGate

variable {places : Nat}

/-- A decimal with `places` digits after the point. -/
structure FixedDecimal (places : Nat) where
  negative : Bool
  whole : List Char
  fraction : List Char
  whole_ne_nil : whole ≠ []
  whole_digits : ∀ c ∈ whole, c.isDigit = true
  whole_leading : whole.head? = some '0' → whole = ['0']
  fraction_digits : ∀ c ∈ fraction, c.isDigit = true
  length_fraction : fraction.length = places

namespace FixedDecimal

def text (plus : Bool) (d : FixedDecimal places) : String :=
  String.ofList
    ((if d.negative then ['-'] else if plus then ['+'] else []) ++ (d.whole ++ '.' :: d.fraction))

def units (d : FixedDecimal places) : Int :=
  let magnitude : Int := (Nat.ofDigitChars 10 (d.whole ++ d.fraction) 0 : Nat)
  if d.negative then -magnitude else magnitude

def value (d : FixedDecimal places) : Rat := d.units / 10 ^ places

theorem value_le_value {d d' : FixedDecimal places} (le : d.units ≤ d'.units) :
    d.value ≤ d'.value := by
  unfold value
  gcongr

theorem toList_text (plus : Bool) (d : FixedDecimal places) :
    (d.text plus).toList =
      (if d.negative then ['-'] else if plus then ['+'] else []) ++
        (d.whole ++ '.' :: d.fraction) := by
  rw [text, String.toList_ofList]

theorem point_mem_text (plus : Bool) (d : FixedDecimal places) : '.' ∈ (d.text plus).toList := by
  rw [toList_text]
  simp

theorem head?_text (plus : Bool) (d : FixedDecimal places) :
    (d.text plus).toList.head? = some '-' ↔ d.negative = true := by
  obtain ⟨c, cs, chars⟩ := List.exists_cons_of_ne_nil d.whole_ne_nil
  have digit : c ≠ '-' := by
    rintro rfl
    exact absurd (d.whole_digits '-' (chars ▸ List.mem_cons_self)) (by decide)
  rw [toList_text, chars]
  cases d.negative <;> cases plus <;> simp [digit]

theorem eq_of_text_eq {plus : Bool} {d d' : FixedDecimal places}
    (same : d.text plus = d'.text plus) : d = d' := by
  have negative : d.negative = d'.negative := by
    rw [Bool.eq_iff_iff, ← head?_text plus, ← head?_text plus, same]
  have chars := congrArg String.toList same
  rw [toList_text, toList_text, negative, List.append_cancel_left_eq] at chars
  have length : ('.' :: d.fraction).length = ('.' :: d'.fraction).length := by
    rw [List.length_cons, List.length_cons, d.length_fraction, d'.length_fraction]
  obtain ⟨whole, fraction⟩ := List.append_inj' chars length
  cases d
  cases d'
  cases negative
  cases whole
  cases fraction
  rfl

end FixedDecimal

def paddedDigits (places n : Nat) : List Char :=
  List.replicate (places + 1 - (digits n).length) '0' ++ digits n

theorem isDigit_of_mem_paddedDigits {n : Nat} {c : Char} (member : c ∈ paddedDigits places n) :
    c.isDigit = true := by
  rcases List.mem_append.1 member with zero | digit
  · rw [List.eq_of_mem_replicate zero]
    rfl
  · exact isDigit_of_mem_digits digit

theorem length_paddedDigits (places n : Nat) :
    (paddedDigits places n).length = max (places + 1) (digits n).length := by
  rw [paddedDigits, List.length_append, List.length_replicate]
  omega

theorem ofDigitChars_paddedDigits (places n : Nat) :
    Nat.ofDigitChars 10 (paddedDigits places n) 0 = n := by
  rw [paddedDigits, Nat.ofDigitChars_append, Nat.ofDigitChars_replicate_zero, mul_zero,
    ofDigitChars_digits]

theorem length_paddedDigits_of_leading {n : Nat}
    (leading : (paddedDigits places n).head? = some '0') :
    (paddedDigits places n).length = places + 1 := by
  rw [length_paddedDigits]
  rcases Nat.lt_or_ge (digits n).length (places + 1) with fewer | enough
  · omega
  · obtain ⟨c, cs, eq, -, -, -, alone⟩ := Json.Reader.digits_eq_cons n
    rw [paddedDigits, Nat.sub_eq_zero_of_le enough, List.replicate_zero, List.nil_append, eq,
      List.head?_cons, Option.some.injEq] at leading
    have : cs = [] := alone (by rw [leading]; rfl)
    rw [eq, this, List.length_singleton]
    omega

def FixedDecimal.ofUnits (places : Nat) (negative : Bool) (n : Nat) : FixedDecimal places where
  negative
  whole := (paddedDigits places n).take ((paddedDigits places n).length - places)
  fraction := (paddedDigits places n).drop ((paddedDigits places n).length - places)
  whole_ne_nil nil := by
    have := congrArg List.length nil
    rw [List.length_take, length_paddedDigits, List.length_nil] at this
    omega
  whole_digits _ member := isDigit_of_mem_paddedDigits (List.mem_of_mem_take member)
  whole_leading leading := by
    rw [List.head?_take, length_paddedDigits, if_neg (by omega)] at leading
    rw [length_paddedDigits_of_leading leading, Nat.add_sub_cancel_left, List.take_one, leading]
    rfl
  fraction_digits _ member := isDigit_of_mem_paddedDigits (List.mem_of_mem_drop member)
  length_fraction := by
    rw [List.length_drop, length_paddedDigits]
    omega

theorem FixedDecimal.units_ofUnits (places : Nat) (negative : Bool) (n : Nat) :
    (ofUnits places negative n).units = if negative then -(n : Int) else n := by
  simp only [units, ofUnits, List.take_append_drop, ofDigitChars_paddedDigits]

def FixedDecimal.nearest (places : Nat) (negative : Bool) (magnitude : Rat) :
    FixedDecimal places :=
  .ofUnits places negative (Tie.even.round (magnitude * power 10 places)).toNat

theorem FixedDecimal.isNearestEven_nearest (places : Nat) (negative : Bool) {magnitude : Rat}
    (nonneg : 0 ≤ magnitude) :
    IsNearestEven ((if negative then -magnitude else magnitude) * 10 ^ places)
      (nearest places negative magnitude).units := by
  have scaled : magnitude * power 10 places = magnitude * 10 ^ places := by
    rw [power_eq_zpow, zpow_natCast, Nat.cast_ofNat]
  have units_nonneg : 0 ≤ Tie.even.round (magnitude * 10 ^ places) := by
    have := Tie.even.round_mono (show ((0 : Int) : Rat) ≤ magnitude * 10 ^ places by positivity)
    rwa [Tie.round_intCast] at this
  have near := Tie.isNearestEven_round (magnitude * 10 ^ places)
  rw [nearest, units_ofUnits, scaled, Int.toNat_of_nonneg units_nonneg]
  cases negative with
  | false => exact near
  | true => simpa only [if_true, neg_mul] using near.neg

theorem Binary64.fixedText_finite (places : Nat) (plus negative : Bool) (rank : Fin infiniteRank) :
    (finite negative rank).fixedText places plus =
      (FixedDecimal.nearest places negative (magnitude rank)).text plus :=
  rfl

theorem Binary64.isNearestEven_signedMagnitude (places : Nat) (negative : Bool) (rank : Nat) :
    IsNearestEven (signedMagnitude negative rank * 10 ^ places)
      (FixedDecimal.nearest places negative (magnitude rank)).units :=
  FixedDecimal.isNearestEven_nearest places negative (magnitude_nonneg rank)

/-- Two numbers are shown as the same decimal, or by the same word. -/
inductive Binary64.ShownAlike (places : Nat) : Binary64 → Binary64 → Prop
  | nan : ShownAlike places .nan .nan
  | infinity (negative : Bool) : ShownAlike places (.infinity negative) (.infinity negative)
  | finite {negative negative' : Bool} {rank rank' : Fin infiniteRank}
    (same : FixedDecimal.nearest places negative (magnitude rank) =
      FixedDecimal.nearest places negative' (magnitude rank')) :
      ShownAlike places (.finite negative rank) (.finite negative' rank')

namespace Binary64

theorem point_mem_fixedText_iff (places : Nat) (plus : Bool) (x : Binary64) :
    '.' ∈ (x.fixedText places plus).toList ↔ x.isFinite := by
  cases x with
  | nan => exact iff_of_false (by decide : '.' ∉ "NaN".toList) nofun
  | infinity negative =>
      rw [fixedText, String.toList_ofList]
      exact iff_of_false (by cases negative <;> cases plus <;> decide) nofun
  | finite negative rank =>
      rw [fixedText_finite]
      exact iff_of_true (FixedDecimal.point_mem_text plus _) rfl

section
variable {plus : Bool} {x y : Binary64}

theorem isFinite_eq_of_fixedText_eq (same : x.fixedText places plus = y.fixedText places plus) :
    x.isFinite = y.isFinite := by
  rw [Bool.eq_iff_iff, ← point_mem_fixedText_iff places plus, same, point_mem_fixedText_iff]

theorem eq_of_fixedText_eq_of_word (word : x.isFinite = false) (word' : y.isFinite = false)
    (same : x.fixedText places plus = y.fixedText places plus) : x = y := by
  cases x with
  | finite => cases word
  | nan =>
      cases y with
      | finite => cases word'
      | nan => rfl
      | infinity negative =>
          rw [fixedText, fixedText] at same
          exact absurd same (by cases negative <;> cases plus <;> decide)
  | infinity negative =>
      cases y with
      | finite => cases word'
      | nan =>
          rw [fixedText, fixedText] at same
          exact absurd same (by cases negative <;> cases plus <;> decide)
      | infinity negative' =>
          rw [fixedText, fixedText] at same
          revert same
          cases negative <;> cases negative' <;> cases plus <;> decide

end

theorem fixedText_eq_iff (places : Nat) (plus : Bool) (x y : Binary64) :
    x.fixedText places plus = y.fixedText places plus ↔ ShownAlike places x y := by
  constructor
  · intro same
    have kind := isFinite_eq_of_fixedText_eq same
    cases x with
    | finite negative rank =>
        cases y with
        | finite negative' rank' =>
            rw [fixedText_finite, fixedText_finite] at same
            exact .finite (FixedDecimal.eq_of_text_eq same)
        | _ => cases kind
    | nan =>
        obtain rfl := eq_of_fixedText_eq_of_word rfl kind.symm same
        exact .nan
    | infinity negative =>
        obtain rfl := eq_of_fixedText_eq_of_word rfl kind.symm same
        exact .infinity negative
  · intro alike
    cases alike with
    | nan => rfl
    | infinity => rfl
    | finite same => rw [fixedText_finite, fixedText_finite, same]

end Binary64

end LatencyGate
