import Mathlib
import LatencyGate.Json.Reader.Skip
import LatencyGate.Proofs.Json.Meaning
import LatencyGate.Proofs.Json.Reading.Basic

namespace LatencyGate.Json.Reader

theorem digit?_digitByte (d : Fin 10) : digit? (digitByte d) = some d.val := by
  revert d
  decide

theorem exists_digit {b : UInt8} {n : Nat} (digit : digit? b = some n) :
    ∃ d : Fin 10, digitByte d = b ∧ d.val = n := by
  unfold digit? at digit
  split at digit
  · rename_i range
    cases digit
    rw [UInt8.le_iff_toNat_le, UInt8.le_iff_toNat_le] at range
    have bound : b.toNat - 0x30 < 10 := by simp at range; omega
    refine ⟨⟨b.toNat - 0x30, bound⟩, ?_, rfl⟩
    rw [← UInt8.toNat_inj, digitByte, UInt8.toNat_ofNat']
    simp at range ⊢
    omega
  · cases digit

theorem digitByte_ne (d : Fin 10) : digitByte d ≠ byte '.' ∧ digitByte d ≠ byte '-' ∧
    digitByte d ≠ byte '+' ∧ isExponentMark (digitByte d) = false := by
  revert d
  decide

theorem digits_cons (d : Fin 10) (ds : Digits) (rest : Bytes) :
    Digits.bytes (d :: ds) ++ rest = digitByte d :: (Digits.bytes ds ++ rest) :=
  rfl

def NoDigit (rest : Bytes) : Prop := ∀ b ∈ rest.head?, digit? b = none

theorem gatherFrom_digitBytes (g : Gathered) (ds : Digits) {rest : Bytes} (ends : NoDigit rest) :
    gatherFrom g (Digits.bytes ds ++ rest) = (ds.foldl push g, rest) := by
  induction ds generalizing g with
  | nil =>
      cases rest with
      | nil => rfl
      | cons b rest =>
          change gatherFrom g (b :: rest) = _
          rw [gatherFrom, ends b rfl]
          rfl
  | cons d ds ih =>
      rw [digits_cons, gatherFrom, digit?_digitByte, List.foldl_cons, ← ih]
      unfold push
      dsimp only
      split <;> rfl

theorem spelled_gatherFrom (g : Gathered) (s : Bytes) :
    ∃ ds : Digits, s = Digits.bytes ds ++ (gatherFrom g s).2 ∧ NoDigit (gatherFrom g s).2 := by
  fun_induction gatherFrom g s with
  | case1 =>
      refine ⟨[], rfl, fun c head => ?_⟩
      cases head
  | case2 g b s none =>
      refine ⟨[], rfl, fun c head => ?_⟩
      cases head
      exact none
  | case3 g b s n digit used ih | case4 g b s n digit used ih =>
      obtain ⟨d, rfl, -⟩ := exists_digit digit
      obtain ⟨ds, eq, ends⟩ := ih
      exact ⟨d :: ds, by rw [digits_cons, ← eq], ends⟩

theorem push_count (g : Gathered) (ds : Digits) :
    (ds.foldl push g).used + (ds.foldl push g).dropped = g.used + g.dropped + ds.length := by
  induction ds generalizing g with
  | nil => rfl
  | cons d ds ih =>
      rw [List.foldl_cons, ih, List.length_cons]
      unfold push
      split <;> simp only <;> omega

theorem gathered_count (significand : Nat) (ds : Digits) :
    (gathered significand ds).used + (gathered significand ds).dropped = ds.length := by
  rw [gathered, push_count, Nat.zero_add, Nat.zero_add]

theorem result?_gather (significand : Nat) (ds : Digits) {rest : Bytes} (ends : NoDigit rest) :
    (gather significand).result? (Digits.bytes ds ++ rest) =
      some (gathered significand ds, rest) :=
  congrArg some (gatherFrom_digitBytes _ ds ends)

theorem spelled_gather {significand : Nat} {s r : Bytes} {g : Gathered}
    (ok : (gather significand).run s = .ok (g, r)) : ∃ ds, s = Digits.bytes ds ++ r ∧ NoDigit r := by
  have taken := spelled_gatherFrom ⟨significand, 0, 0⟩ s
  rwa [Except.ok.inj ok] at taken

theorem noDigit_of_stops {rest : Bytes} (stops : Stops rest) : NoDigit rest :=
  fun b head => (stops b head).1

theorem result?_float (negative : Bool) (significand : Nat) (exponent : Int) (s : Bytes) :
    (float negative significand exponent).result? s =
      (float? negative significand exponent).map (·, s) := by
  unfold float float?
  cases scale? (.ofNat significand) exponent <;> rfl

theorem result?_exponentSign (x : Exponent) (s : Bytes) :
    exponentSign.result? (Exponent.signBytes x.sign ++ digitByte x.first :: s) =
      some (x.down, digitByte x.first :: s) := by
  have other := digitByte_ne x.first
  rw [Exponent.down]
  cases x.sign with
  | none =>
      change exponentSign.result? (digitByte x.first :: s) = _
      rw [exponentSign, result?_peek?_bind]
      simp only [List.head?_cons, if_neg other.2.1, if_neg other.2.2.1]
      rfl
  | some negative => cases negative <;> rfl

theorem exponentFrom_digitBytes (n : Nat) (ds : Digits) {rest : Bytes} (ends : NoDigit rest) :
    ∃ ds', exponentFrom n (Digits.bytes ds ++ rest) =
        (Exponent.value? n ds, Digits.bytes ds' ++ rest) ∧
      (Exponent.value? n ds ≠ none → ds' = []) := by
  induction ds generalizing n with
  | nil =>
      refine ⟨[], ?_, fun _ => rfl⟩
      cases rest with
      | nil => rfl
      | cons b rest =>
          change exponentFrom n (b :: rest) = _
          rw [exponentFrom, ends b rfl]
          rfl
  | cons d ds ih =>
      rw [digits_cons, exponentFrom, digit?_digitByte]
      unfold Exponent.value?
      dsimp only
      split
      · exact ih _
      · exact ⟨ds, rfl, fun some => absurd rfl some⟩

theorem result?_exponentPart (x : Exponent) (negative : Bool) (significand : Nat) (start : Int)
    {rest : Bytes} (ends : NoDigit rest) :
    (exponentPart negative significand start).result?
        (Exponent.signBytes x.sign ++ digitByte x.first :: (Digits.bytes x.more ++ rest)) =
      (x.number? negative significand start).map (·, rest) := by
  obtain ⟨ds, taken, all⟩ := exponentFrom_digitBytes x.first.val x.more ends
  have digits : (exponentDigits x.first.val).result? (Digits.bytes x.more ++ rest) =
      some (Exponent.value? x.first.val x.more, Digits.bytes ds ++ rest) := congrArg some taken
  rw [exponentPart, result?_bind_some (result?_exponentSign x _), result?_next?_bind]
  simp only [List.head?_cons, List.tail_cons, digit?_digitByte, result?_bind_some digits]
  rw [Exponent.number?]
  cases value : Exponent.value? x.first.val x.more with
  | some n =>
      obtain rfl := all (by rw [value]; exact Option.some_ne_none n)
      exact result?_float negative significand _ rest
  | none =>
      dsimp only
      by_cases overflow : significand ≠ 0 ∧ !x.down
      · rw [if_pos overflow, if_pos overflow]
        rfl
      · rw [if_neg overflow, if_neg overflow, result?_bind, result?_gather 0 ds ends]
        rfl

theorem spelled_exponentSign {s r : Bytes} {down : Bool} (ok : exponentSign.run s = .ok (down, r)) :
    ∃ sign, s = Exponent.signBytes sign ++ r := by
  rw [exponentSign, run_peek?_bind] at ok
  cases s with
  | nil => exact ⟨none, (run_pure_ok.1 ok).2⟩
  | cons b s =>
      simp only [List.head?_cons] at ok
      split at ok
      · rename_i minus
        obtain rfl := (run_pure_ok.1 ok).2
        exact ⟨some true, by rw [minus]; rfl⟩
      split at ok
      · rename_i plus
        obtain rfl := (run_pure_ok.1 ok).2
        exact ⟨some false, by rw [plus]; rfl⟩
      · exact ⟨none, (run_pure_ok.1 ok).2⟩

theorem spelled_exponentFrom (n : Nat) (s : Bytes) :
    ∃ ds : Digits, s = Digits.bytes ds ++ (exponentFrom n s).2 := by
  fun_induction exponentFrom n s with
  | case1 => exact ⟨[], rfl⟩
  | case2 => exact ⟨[], rfl⟩
  | case3 n b s m digit fits ih =>
      obtain ⟨d, rfl, -⟩ := exists_digit digit
      obtain ⟨ds, eq⟩ := ih
      exact ⟨d :: ds, by rw [digits_cons, ← eq]⟩
  | case4 n b s m digit long =>
      obtain ⟨d, rfl, -⟩ := exists_digit digit
      exact ⟨[d], rfl⟩

theorem digits_append (ds ds' : Digits) (rest : Bytes) :
    Digits.bytes (ds ++ ds') ++ rest = Digits.bytes ds ++ (Digits.bytes ds' ++ rest) := by
  rw [Digits.bytes, List.map_append, List.append_assoc]
  rfl

theorem run_float_ok {negative : Bool} {significand : Nat} {exponent : Int} {s r : Bytes} {n : Number}
    (ok : (float negative significand exponent).run s = .ok (n, r)) : s = r := by
  unfold float at ok
  split at ok
  · cases ok
  · exact (run_pure_ok.1 ok).2

def SpelledExponent (s r : Bytes) : Prop := ∃ sign first more,
  s = Exponent.signBytes sign ++ digitByte first :: (Digits.bytes more ++ r)

theorem spelled_exponentPart {negative : Bool} {significand : Nat} {start : Int} {s r : Bytes}
    {n : Number} (read : (exponentPart negative significand start).run s = .ok (n, r)) :
    SpelledExponent s r := by
  obtain ⟨down, t, signed, ok⟩ := run_bind_ok.1 read
  obtain ⟨sign, rfl⟩ := spelled_exponentSign signed
  rw [run_next?_bind] at ok
  cases t with
  | nil => cases ok
  | cons b t =>
      simp only [List.head?_cons, List.tail_cons] at ok
      split at ok
      · cases ok
      rename_i value digit
      obtain ⟨first, rfl, -⟩ := exists_digit digit
      obtain ⟨exponent, t', taken, rest⟩ := run_bind_ok.1 ok
      obtain ⟨ds, rfl⟩ : ∃ ds : Digits, t = Digits.bytes ds ++ t' := by
        have digits := spelled_exponentFrom value t
        rwa [Except.ok.inj taken] at digits
      split at rest
      · obtain rfl := run_float_ok rest
        exact ⟨sign, first, ds, rfl⟩
      split at rest
      · cases rest
      · obtain ⟨g, t'', dropped, ended⟩ := run_bind_ok.1 rest
        obtain ⟨ds', rfl, -⟩ := spelled_gather dropped
        obtain rfl := (run_pure_ok.1 ended).2
        exact ⟨sign, first, ds ++ ds', by rw [digits_append]⟩

theorem isExponentMark_iff {b : UInt8} :
    isExponentMark b = true ↔ ∃ upper : Bool, b = if upper then byte 'E' else byte 'e' := by
  simp only [isExponentMark, decide_eq_true_eq, Bool.exists_bool, Bool.false_eq_true, ↓reduceIte]

theorem exponentBytes_some (x : Exponent) (rest : Bytes) :
    Numeral.exponentBytes (some x) ++ rest = (if x.upper then byte 'E' else byte 'e') ::
      (Exponent.signBytes x.sign ++ digitByte x.first :: (Digits.bytes x.more ++ rest)) := by
  simp [Numeral.exponentBytes, Exponent.bytes]

theorem noDigit_exponentBytes (x : Option Exponent) {rest : Bytes} (stops : Stops rest) :
    NoDigit (Numeral.exponentBytes x ++ rest) := by
  cases x with
  | none => exact noDigit_of_stops stops
  | some x =>
      intro b head
      rw [exponentBytes_some] at head
      cases head
      cases x.upper <;> rfl

theorem noDigit_fractionBytes (fraction : Option (Fin 10 × Digits)) (x : Option Exponent)
    {rest : Bytes} (stops : Stops rest) :
    NoDigit (Numeral.fractionBytes fraction ++ (Numeral.exponentBytes x ++ rest)) := by
  cases fraction with
  | none => exact noDigit_exponentBytes x stops
  | some digits =>
      intro b head
      cases head
      rfl

theorem isExponentMark_mark (upper : Bool) :
    isExponentMark (if upper then byte 'E' else byte 'e') = true :=
  isExponentMark_iff.2 ⟨upper, rfl⟩

theorem result?_leadingDigit (n : Numeral) {rest : Bytes} (ends : NoDigit rest) :
    (leadingDigit n.first.val).result? (Digits.bytes n.more ++ rest) =
      some ((), Digits.bytes n.more ++ rest) := by
  rw [leadingDigit, result?_peek?_bind]
  cases eq : Digits.bytes n.more ++ rest with
  | nil => rfl
  | cons b s =>
      have other : ¬(n.first.val = 0 ∧ (digit? b).isSome) := by
        rintro ⟨zero, digit⟩
        rw [n.leading (Fin.ext zero)] at eq
        obtain rfl : rest = b :: s := eq
        rw [ends b rfl] at digit
        cases digit
      simp only [List.head?_cons, if_neg other]
      rfl

theorem result?_fractionPart (negative : Bool) (significand : Nat) (start : Int) (d : Fin 10)
    (ds : Digits) (x : Option Exponent) {rest : Bytes} (stops : Stops rest) :
    (fractionPart negative significand start).result?
        (digitByte d :: (Digits.bytes ds ++ (Numeral.exponentBytes x ++ rest))) =
      (match x with
        | none => float? negative (gathered significand (d :: ds)).significand
            (start - (gathered significand (d :: ds)).used)
        | some x => x.number? negative (gathered significand (d :: ds)).significand
            (start - (gathered significand (d :: ds)).used)).map (·, rest) := by
  have taken := result?_gather significand (d :: ds) (noDigit_exponentBytes x stops)
  rw [digits_cons] at taken
  rw [fractionPart, result?_peek?_bind]
  simp only [List.head?_cons, digit?_digitByte, Option.isNone_some, Bool.false_eq_true, ↓reduceIte]
  rw [result?_bind_some taken, result?_peek?_bind]
  cases x with
  | none =>
      rw [Numeral.exponentBytes, List.nil_append]
      cases rest with
      | nil => exact result?_float ..
      | cons b rest =>
          simp only [List.head?_cons, (stops b rfl).2.2, Bool.false_eq_true, ↓reduceIte]
          exact result?_float ..
  | some x =>
      rw [exponentBytes_some]
      simp only [List.head?_cons, isExponentMark_mark, ↓reduceIte, result?_next?_bind,
        List.tail_cons]
      exact result?_exponentPart x _ _ _ (noDigit_of_stops stops)

theorem tail_append (n : Numeral) (rest : Bytes) :
    n.tail ++ rest = Digits.bytes n.more ++
      (Numeral.fractionBytes n.fraction ++ (Numeral.exponentBytes n.exponent ++ rest)) := by
  rw [Numeral.tail, List.append_assoc, List.append_assoc]

theorem result?_numberFrom (n : Numeral) {rest : Bytes} (stops : Stops rest) :
    (numberFrom n.negative n.first.val).result? (n.tail ++ rest) = n.number?.map (·, rest) := by
  have ends := noDigit_fractionBytes n.fraction n.exponent stops
  rw [tail_append, numberFrom, result?_bind_some (result?_leadingDigit n ends),
    result?_bind_some (result?_gather _ _ ends), result?_peek?_bind, Numeral.number?]
  obtain ⟨negative, first, more, leading, fraction, exponent⟩ := n
  cases fraction with
  | some digits =>
      simp only [Numeral.fractionBytes, List.cons_append, List.head?_cons, ↓reduceIte,
        result?_next?_bind, List.tail_cons]
      rw [result?_fractionPart _ _ _ _ _ _ stops]
      cases exponent <;> rfl
  | none =>
      cases exponent with
      | none =>
          have whole : (if (gathered first.val more).dropped = 0 then
                pure (integer negative (gathered first.val more).significand)
              else float negative (gathered first.val more).significand
                (gathered first.val more).dropped).result? rest =
              (if (gathered first.val more).dropped = 0 then
                some (integer negative (gathered first.val more).significand)
              else float? negative (gathered first.val more).significand
                (gathered first.val more).dropped).map (·, rest) := by
            split
            · rfl
            · exact result?_float ..
          -- What follows is neither a point nor the mark of an exponent.
          simp only [Numeral.fractionBytes, Numeral.exponentBytes, List.nil_append]
          cases rest with
          | nil => exact whole
          | cons b rest =>
              simp only [List.head?_cons, (stops b rfl).2.1, (stops b rfl).2.2, Bool.false_eq_true,
                ↓reduceIte]
              exact whole
      | some x =>
          rw [exponentBytes_some]
          have point : (if x.upper then byte 'E' else byte 'e') ≠ byte '.' := by
            cases x.upper <;> decide
          simp only [Numeral.fractionBytes, List.nil_append, List.head?_cons, if_neg point,
            isExponentMark_mark, ↓reduceIte, result?_next?_bind, List.tail_cons]
          exact result?_exponentPart x _ _ _ (noDigit_of_stops stops)

theorem result?_negativeNumber {n : Numeral} (negative : n.negative = true) {rest : Bytes}
    (stops : Stops rest) :
    negativeNumber.result? (digitByte n.first :: (n.tail ++ rest)) = n.number?.map (·, rest) := by
  rw [negativeNumber, result?_next?_bind]
  simp only [List.head?_cons, List.tail_cons, digit?_digitByte]
  rw [← negative]
  exact result?_numberFrom n stops

theorem spelled_mark {b : UInt8} {s r : Bytes} (mark : isExponentMark b = true)
    (exponent : SpelledExponent s r) : ∃ x, b :: s = Numeral.exponentBytes (some x) ++ r := by
  obtain ⟨upper, rfl⟩ := isExponentMark_iff.1 mark
  obtain ⟨sign, first, more, rfl⟩ := exponent
  exact ⟨⟨upper, sign, first, more⟩, (exponentBytes_some ⟨upper, sign, first, more⟩ r).symm⟩

theorem spelled_leadingDigit {first : Nat} {s r : Bytes} {u : Unit}
    (ok : (leadingDigit first).run s = .ok (u, r)) : s = r ∧ (first = 0 → NoDigit s) := by
  rw [leadingDigit, run_peek?_bind] at ok
  cases s with
  | nil => exact ⟨(run_pure_ok.1 ok).2, fun _ => nofun⟩
  | cons b s =>
      simp only [List.head?_cons] at ok
      split at ok
      · cases ok
      · rename_i other
        refine ⟨(run_pure_ok.1 ok).2, fun zero c head => ?_⟩
        cases head
        exact Option.not_isSome_iff_eq_none.1 fun digit => other ⟨zero, digit⟩

def SpelledFraction (s r : Bytes) : Prop := ∃ (d : Fin 10) (ds : Digits) (x : Option Exponent),
  s = digitByte d :: (Digits.bytes ds ++ (Numeral.exponentBytes x ++ r))

theorem spelledFraction_of_digits {ds : Digits} {x : Option Exponent} {r : Bytes} (some : ds ≠ []) :
    SpelledFraction (Digits.bytes ds ++ (Numeral.exponentBytes x ++ r)) r := by
  cases ds with
  | nil => exact absurd rfl some
  | cons d ds => exact ⟨d, ds, x, rfl⟩

theorem spelled_fractionPart {negative : Bool} {significand : Nat} {start : Int} {s r : Bytes}
    {n : Number} (ok : (fractionPart negative significand start).run s = .ok (n, r)) :
    SpelledFraction s r := by
  rw [fractionPart, run_peek?_bind] at ok
  cases s with
  | nil => cases ok
  | cons b s =>
      simp only [List.head?_cons] at ok
      split at ok
      · cases ok
      rename_i digit
      obtain ⟨g, t, taken, ended⟩ := run_bind_ok.1 ok
      obtain ⟨ds, eq, ends⟩ := spelled_gather taken
      have some : ds ≠ [] := by
        rintro rfl
        rw [ends b (congrArg List.head? eq).symm] at digit
        exact digit rfl
      rw [run_peek?_bind] at ended
      rw [eq]
      cases t with
      | nil =>
          obtain rfl := run_float_ok ended
          exact spelledFraction_of_digits (x := none) some
      | cons c t =>
          simp only [List.head?_cons] at ended
          split at ended
          · rename_i mark
            rw [run_next?_bind, List.tail_cons] at ended
            obtain ⟨x, eq⟩ := spelled_mark mark (spelled_exponentPart ended)
            rw [eq]
            exact spelledFraction_of_digits some
          · obtain rfl := run_float_ok ended
            exact spelledFraction_of_digits (x := none) some

def SpelledTail (first : Fin 10) (s r : Bytes) : Prop :=
  ∃ n : Numeral, n.first = first ∧ s = n.tail ++ r

theorem spelledTail_of_parts {first : Fin 10} {ds : Digits} {r : Bytes}
    (fraction : Option (Fin 10 × Digits)) (x : Option Exponent)
    (leading : first.val = 0 → NoDigit (Digits.bytes ds ++
      (Numeral.fractionBytes fraction ++ (Numeral.exponentBytes x ++ r)))) :
    SpelledTail first (Digits.bytes ds ++
      (Numeral.fractionBytes fraction ++ (Numeral.exponentBytes x ++ r))) r := by
  have alone : first = 0 → ds = [] := by
    rintro rfl
    cases ds with
    | nil => rfl
    | cons d ds =>
        have digit := leading rfl (digitByte d) rfl
        rw [digit?_digitByte] at digit
        cases digit
  refine ⟨⟨false, first, ds, alone, fraction, x⟩, rfl, ?_⟩
  rw [tail_append]

theorem spelled_numberFrom {negative : Bool} {first : Fin 10} {s r : Bytes} {n : Number}
    (ok : (numberFrom negative first.val).run s = .ok (n, r)) : SpelledTail first s r := by
  obtain ⟨_, t, checked, ok⟩ := run_bind_ok.1 ok
  obtain ⟨rfl, leading⟩ := spelled_leadingDigit checked
  obtain ⟨g, t, taken, ended⟩ := run_bind_ok.1 ok
  obtain ⟨ds, rfl, -⟩ := spelled_gather taken
  have whole {t : Bytes} (ok : (if g.dropped = 0 then pure (integer negative g.significand)
      else float negative g.significand g.dropped).run t = .ok (n, r)) : t = r := by
    split at ok
    · exact (run_pure_ok.1 ok).2
    · exact run_float_ok ok
  rw [run_peek?_bind] at ended
  cases t with
  | nil =>
      obtain rfl := whole ended
      exact spelledTail_of_parts none none leading
  | cons b t =>
      simp only [List.head?_cons] at ended
      split at ended
      · rename_i point
        subst point
        rw [run_next?_bind] at ended
        obtain ⟨d, ds', x, rfl⟩ := spelled_fractionPart ended
        exact spelledTail_of_parts (some (d, ds')) x leading
      split at ended
      · rename_i mark
        rw [run_next?_bind, List.tail_cons] at ended
        obtain ⟨x, eq⟩ := spelled_mark mark (spelled_exponentPart ended)
        rw [eq] at leading ⊢
        exact spelledTail_of_parts none (some x) leading
      · obtain rfl := whole ended
        exact spelledTail_of_parts none none leading

theorem SpelledTail.positive {first : Fin 10} {s r : Bytes} (tail : SpelledTail first s r) :
    ∃ n : Numeral, digitByte first :: s = n.bytes ++ r := by
  obtain ⟨n, rfl, rfl⟩ := tail
  exact ⟨{ n with negative := false }, rfl⟩

theorem SpelledTail.negative {first : Fin 10} {s r : Bytes} (tail : SpelledTail first s r) :
    ∃ n : Numeral, byte '-' :: digitByte first :: s = n.bytes ++ r := by
  obtain ⟨n, rfl, rfl⟩ := tail
  exact ⟨{ n with negative := true }, rfl⟩

theorem spelled_negativeNumber {s r : Bytes} {n : Number} (ok : negativeNumber.run s = .ok (n, r)) :
    ∃ n : Numeral, byte '-' :: s = n.bytes ++ r := by
  rw [negativeNumber, run_next?_bind] at ok
  cases s with
  | nil => cases ok
  | cons b s =>
      simp only [List.head?_cons, List.tail_cons] at ok
      split at ok
      · cases ok
      · rename_i digit
        obtain ⟨first, rfl, rfl⟩ := exists_digit digit
        exact (spelled_numberFrom ok).negative

theorem result?_skipDigits (ds : Digits) {rest : Bytes} (ends : NoDigit rest) :
    skipDigits.result? (Digits.bytes ds ++ rest) = some (ds.length != 0, rest) := by
  rw [skipDigits, result?_bind_some (result?_gather 0 ds ends), gathered_count]
  rfl

theorem spelled_skipDigits {s r : Bytes} {any : Bool} (ok : skipDigits.run s = .ok (any, r)) :
    ∃ ds : Digits, s = Digits.bytes ds ++ r ∧ any = (ds.length != 0) := by
  obtain ⟨g, t, taken, ok⟩ := run_bind_ok.1 ok
  obtain ⟨rfl, rfl⟩ := run_pure_ok.1 ok
  obtain ⟨ds, rfl, ends⟩ := spelled_gather taken
  have again := result?_gather 0 ds ends
  rw [result?_of_ok taken] at again
  obtain rfl := (Prod.mk.inj (Option.some.inj again)).1
  exact ⟨ds, rfl, by rw [gathered_count]⟩

theorem result?_skipExponent (x : Exponent) {rest : Bytes} (ends : NoDigit rest) :
    skipExponent.result?
        (Exponent.signBytes x.sign ++ digitByte x.first :: (Digits.bytes x.more ++ rest)) =
      some ((), rest) := by
  rw [skipExponent, result?_bind_some (result?_exponentSign x _), result?_next?_bind]
  simp only [List.head?_cons, List.tail_cons, digit?_digitByte, Option.isSome_some, ↓reduceIte]
  rw [result?_bind_some (result?_skipDigits x.more ends)]
  rfl

theorem spelled_skipExponent {s r : Bytes} {u : Unit} (read : skipExponent.run s = .ok (u, r)) :
    SpelledExponent s r := by
  obtain ⟨down, t, signed, ok⟩ := run_bind_ok.1 read
  obtain ⟨sign, rfl⟩ := spelled_exponentSign signed
  rw [run_next?_bind] at ok
  cases t with
  | nil => cases ok
  | cons b t =>
      simp only [List.head?_cons, List.tail_cons] at ok
      split at ok
      · rename_i digit
        obtain ⟨value, digit⟩ := Option.isSome_iff_exists.1 digit
        obtain ⟨first, rfl, -⟩ := exists_digit digit
        obtain ⟨any, t', taken, ended⟩ := run_bind_ok.1 ok
        obtain ⟨ds, rfl, -⟩ := spelled_skipDigits taken
        obtain rfl := (run_pure_ok.1 ended).2
        exact ⟨sign, first, ds, rfl⟩
      · cases ok

theorem result?_skipExponentPart (x : Option Exponent) {rest : Bytes} (stops : Stops rest) :
    skipExponentPart.result? (Numeral.exponentBytes x ++ rest) = some ((), rest) := by
  rw [skipExponentPart, result?_peek?_bind]
  cases x with
  | none =>
      rw [Numeral.exponentBytes, List.nil_append]
      cases rest with
      | nil => rfl
      | cons b rest =>
          simp only [List.head?_cons, (stops b rfl).2.2, Bool.false_eq_true, ↓reduceIte]
          rfl
  | some x =>
      rw [exponentBytes_some]
      simp only [List.head?_cons, isExponentMark_mark, ↓reduceIte, result?_next?_bind,
        List.tail_cons]
      exact result?_skipExponent x (noDigit_of_stops stops)

theorem spelled_skipExponentPart {s r : Bytes} {u : Unit}
    (ok : skipExponentPart.run s = .ok (u, r)) : ∃ x, s = Numeral.exponentBytes x ++ r := by
  rw [skipExponentPart, run_peek?_bind] at ok
  cases s with
  | nil => exact ⟨none, (run_pure_ok.1 ok).2⟩
  | cons b s =>
      simp only [List.head?_cons] at ok
      split at ok
      · rename_i mark
        rw [run_next?_bind] at ok
        obtain ⟨x, eq⟩ := spelled_mark mark (spelled_skipExponent ok)
        exact ⟨some x, eq⟩
      · exact ⟨none, (run_pure_ok.1 ok).2⟩

theorem result?_skipNumberFrom (n : Numeral) {rest : Bytes} (stops : Stops rest) :
    (skipNumberFrom n.first.val).result? (n.tail ++ rest) = some ((), rest) := by
  have ends := noDigit_fractionBytes n.fraction n.exponent stops
  rw [tail_append, skipNumberFrom, result?_bind_some (result?_leadingDigit n ends),
    result?_bind_some (result?_skipDigits _ ends), result?_peek?_bind]
  cases n.fraction with
  | some digits =>
      obtain ⟨d, ds⟩ := digits
      have taken := result?_skipDigits (d :: ds) (noDigit_exponentBytes n.exponent stops)
      rw [digits_cons] at taken
      simp only [Numeral.fractionBytes, List.cons_append, List.head?_cons, ↓reduceIte,
        result?_next?_bind, List.tail_cons, result?_bind_some taken]
      exact result?_skipExponentPart n.exponent stops
  | none =>
      have other : (Numeral.exponentBytes n.exponent ++ rest).head? ≠ some (byte '.') := by
        cases n.exponent with
        | none => exact fun point => (stops _ point).2.1 rfl
        | some x =>
            rw [exponentBytes_some, List.head?_cons]
            cases x.upper <;> decide
      rw [Numeral.fractionBytes, List.nil_append, if_neg other]
      exact result?_skipExponentPart n.exponent stops

theorem spelled_skipNumberFrom {first : Fin 10} {s r : Bytes} {u : Unit}
    (ok : (skipNumberFrom first.val).run s = .ok (u, r)) : SpelledTail first s r := by
  obtain ⟨_, t, checked, ok⟩ := run_bind_ok.1 ok
  obtain ⟨rfl, leading⟩ := spelled_leadingDigit checked
  obtain ⟨any, t, taken, ended⟩ := run_bind_ok.1 ok
  obtain ⟨ds, rfl, -⟩ := spelled_skipDigits taken
  rw [run_peek?_bind] at ended
  split at ended
  · rename_i point
    obtain ⟨t, rfl⟩ := List.head?_eq_some_iff.1 point
    rw [run_next?_bind, List.tail_cons] at ended
    obtain ⟨any', t', taken', exponent⟩ := run_bind_ok.1 ended
    obtain ⟨ds', rfl, digits⟩ := spelled_skipDigits taken'
    rw [digits] at exponent
    cases ds' with
    | nil => cases exponent
    | cons d ds' =>
        obtain ⟨x, rfl⟩ := spelled_skipExponentPart exponent
        exact spelledTail_of_parts (some (d, ds')) x leading
  · obtain ⟨x, rfl⟩ := spelled_skipExponentPart ended
    exact spelledTail_of_parts none x leading

theorem result?_skipNegativeNumber (n : Numeral) {rest : Bytes} (stops : Stops rest) :
    skipNegativeNumber.result? (digitByte n.first :: (n.tail ++ rest)) = some ((), rest) := by
  rw [skipNegativeNumber, result?_next?_bind]
  simp only [List.head?_cons, List.tail_cons, digit?_digitByte]
  exact result?_skipNumberFrom n stops

theorem spelled_skipNegativeNumber {s r : Bytes} {u : Unit}
    (ok : skipNegativeNumber.run s = .ok (u, r)) :
    ∃ n : Numeral, byte '-' :: s = n.bytes ++ r := by
  rw [skipNegativeNumber, run_next?_bind] at ok
  cases s with
  | nil => cases ok
  | cons b s =>
      simp only [List.head?_cons, List.tail_cons] at ok
      split at ok
      · cases ok
      · rename_i digit
        obtain ⟨first, rfl, rfl⟩ := exists_digit digit
        exact (spelled_skipNumberFrom ok).negative

end LatencyGate.Json.Reader
