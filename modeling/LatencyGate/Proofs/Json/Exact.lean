import Mathlib
import LatencyGate.Proofs.Json.Decimals
import LatencyGate.Proofs.Json.Readable
import LatencyGate.Proofs.Json.Reading.Skipped

/-!
# Exact readings

The value of a text by the grammar alone: strings are read character by character, integers of 64
bits as they are, and the decimals of all other numbers are rounded once. However a text is taken
apart by the grammar, its exact reading is the same, so a text has one value at most.
-/

namespace LatencyGate.Json

open Reader

theorem digitByte_injective : Function.Injective digitByte := by
  decide

theorem digits_unique {ds ds' : Digits} {r r' : Bytes} (ends : NoDigit r) (ends' : NoDigit r')
    (same : Digits.bytes ds ++ r = Digits.bytes ds' ++ r') : ds = ds' ∧ r = r' := by
  induction ds generalizing ds' with
  | nil =>
      cases ds' with
      | nil => exact ⟨rfl, same⟩
      | cons d ds' =>
          have here : r = digitByte d :: (Digits.bytes ds' ++ r') := same
          have digit := ends (digitByte d) (by rw [here]; rfl)
          rw [digit?_digitByte] at digit
          cases digit
  | cons d ds ih =>
      cases ds' with
      | nil =>
          have here : digitByte d :: (Digits.bytes ds ++ r) = r' := same
          have digit := ends' (digitByte d) (by rw [← here]; rfl)
          rw [digit?_digitByte] at digit
          cases digit
      | cons d' ds' =>
          rw [digits_cons, digits_cons] at same
          obtain ⟨first, others⟩ := List.cons.inj same
          obtain ⟨rfl, rfl⟩ := ih others
          exact ⟨by rw [digitByte_injective first], rfl⟩

theorem sign_unique {sign sign' : Option Bool} {d d' : Fin 10} {r r' : Bytes}
    (same : Exponent.signBytes sign ++ digitByte d :: r =
      Exponent.signBytes sign' ++ digitByte d' :: r') : sign = sign' ∧ d = d' ∧ r = r' := by
  -- A digit is no sign, and the two signs differ.
  have other := digitByte_ne d
  have other' := digitByte_ne d'
  have signs : byte '-' ≠ byte '+' := by decide
  rcases sign with - | - | - <;> rcases sign' with - | - | - <;>
    simp only [Exponent.signBytes, List.nil_append, List.cons_append, List.cons.injEq] at same
  case none.none | some.false.some.false | some.true.some.true =>
    obtain ⟨first, others⟩ := by simpa using same
    exact ⟨rfl, digitByte_injective first, others⟩
  case none.some.false => exact absurd same.1 other.2.2.1
  case none.some.true => exact absurd same.1 other.2.1
  case some.false.none => exact absurd same.1.symm other'.2.2.1
  case some.true.none => exact absurd same.1.symm other'.2.1
  case some.false.some.true => exact absurd same.1.symm signs
  case some.true.some.false => exact absurd same.1 signs

theorem exponentBytes_ne {x : Exponent} {r r' : Bytes} (stops : Stops r) :
    Numeral.exponentBytes (some x) ++ r' ≠ r := by
  rintro rfl
  rw [exponentBytes_some] at stops
  have mark := (stops _ rfl).2.2
  rw [isExponentMark_mark] at mark
  cases mark

theorem exponent_unique {x x' : Option Exponent} {r r' : Bytes} (stops : Stops r)
    (stops' : Stops r') (same : Numeral.exponentBytes x ++ r = Numeral.exponentBytes x' ++ r') :
    x = x' ∧ r = r' := by
  cases x with
  | none =>
      cases x' with
      | none => exact ⟨rfl, same⟩
      | some x' => exact absurd same.symm (exponentBytes_ne stops)
  | some x =>
      cases x' with
      | none => exact absurd same (exponentBytes_ne stops')
      | some x' =>
          rw [exponentBytes_some, exponentBytes_some] at same
          obtain ⟨mark, behind⟩ := List.cons.inj same
          obtain ⟨sign, first, behind⟩ := sign_unique behind
          obtain ⟨more, rest⟩ :=
            digits_unique (noDigit_of_stops stops) (noDigit_of_stops stops') behind
          have upper : x.upper = x'.upper := by
            revert mark
            cases x.upper <;> cases x'.upper <;> decide
          obtain ⟨⟩ := x
          obtain ⟨⟩ := x'
          simp only at sign first more upper
          exact ⟨by rw [sign, first, more, upper], rest⟩

theorem fractionBytes_ne {d : Fin 10} {ds : Digits} {x : Option Exponent} {r r' : Bytes}
    (stops : Stops r) : Numeral.fractionBytes (some (d, ds)) ++ r' ≠ Numeral.exponentBytes x ++ r := by
  intro same
  cases x with
  | none =>
      have here : byte '.' :: (digitByte d :: (Digits.bytes ds ++ r')) = r := same
      exact (stops (byte '.') (by rw [← here]; rfl)).2.1 rfl
  | some x =>
      rw [exponentBytes_some] at same
      have point := (List.cons.inj same).1
      revert point
      cases x.upper <;> decide

theorem fraction_unique {fraction fraction' : Option (Fin 10 × Digits)} {x x' : Option Exponent}
    {r r' : Bytes} (stops : Stops r) (stops' : Stops r')
    (same : Numeral.fractionBytes fraction ++ (Numeral.exponentBytes x ++ r) =
      Numeral.fractionBytes fraction' ++ (Numeral.exponentBytes x' ++ r')) :
    fraction = fraction' ∧ x = x' ∧ r = r' := by
  rcases fraction with - | ⟨d, ds⟩ <;> rcases fraction' with - | ⟨d', ds'⟩
  · exact ⟨rfl, exponent_unique stops stops' same⟩
  · exact absurd same.symm (fractionBytes_ne stops)
  · exact absurd same (fractionBytes_ne stops')
  · have behind : Digits.bytes (d :: ds) ++ (Numeral.exponentBytes x ++ r) =
        Digits.bytes (d' :: ds') ++ (Numeral.exponentBytes x' ++ r') := (List.cons.inj same).2
    obtain ⟨digits, exponents⟩ :=
      digits_unique (noDigit_exponentBytes x stops) (noDigit_exponentBytes x' stops') behind
    obtain ⟨rfl, rfl⟩ := List.cons.inj digits
    exact ⟨rfl, exponent_unique stops stops' exponents⟩

theorem tail_unique {n n' : Numeral} {r r' : Bytes} (stops : Stops r) (stops' : Stops r')
    (same : digitByte n.first :: (n.tail ++ r) = digitByte n'.first :: (n'.tail ++ r')) :
    n.first = n'.first ∧ n.more = n'.more ∧ n.fraction = n'.fraction ∧ n.exponent = n'.exponent := by
  obtain ⟨first, behind⟩ := List.cons.inj same
  rw [tail_append, tail_append] at behind
  obtain ⟨more, behind⟩ := digits_unique (noDigit_fractionBytes _ _ stops)
    (noDigit_fractionBytes _ _ stops') behind
  obtain ⟨fraction, exponent, -⟩ := fraction_unique stops stops' behind
  exact ⟨digitByte_injective first, more, fraction, exponent⟩

theorem numeral_unique {n n' : Numeral} {r r' : Bytes} (stops : Stops r) (stops' : Stops r')
    (same : n.bytes ++ r = n'.bytes ++ r') : n = n' := by
  have other (n : Numeral) : digitByte n.first ≠ byte '-' := (digitByte_ne n.first).2.1
  have sign : n.negative = n'.negative := by
    unfold Numeral.bytes at same
    cases negative : n.negative <;> cases negative' : n'.negative <;>
      simp only [negative, negative', Bool.false_eq_true, ↓reduceIte, List.cons_append,
        List.cons.injEq] at same
    case false.true => exact absurd same.1 (other n)
    case true.false => exact absurd same.1.symm (other n')
    all_goals rfl
  have behind : digitByte n.first :: (n.tail ++ r) = digitByte n'.first :: (n'.tail ++ r') := by
    unfold Numeral.bytes at same
    rw [sign] at same
    split at same
    · exact (List.cons.inj same).2
    · exact same
  obtain ⟨first, more, fraction, exponent⟩ := tail_unique stops stops' behind
  obtain ⟨⟩ := n
  obtain ⟨⟩ := n'
  simp only at sign first more fraction exponent
  subst sign first more fraction exponent
  rfl

theorem literal_unique {l l' : Literal} {r r' : Bytes}
    (same : Literal.bytes l ++ byte '"' :: r = Literal.bytes l' ++ byte '"' :: r') :
    Literal.text? l = Literal.text? l' ∧ r = r' := by
  have skipped := skipStringFrom_literal l r
  rw [same, skipStringFrom_literal] at skipped
  obtain rfl : r' = r := (Prod.mk.inj (Except.ok.inj skipped)).2
  have read := result?_string l r'
  rw [same, result?_string] at read
  have first (l : Literal) : ((Literal.text? l).map (·, r')).map Prod.fst = Literal.text? l := by
    rw [Option.map_map]
    exact Option.map_id'
  rw [← first l, ← read, first]
  exact ⟨rfl, rfl⟩

namespace Spelling

theorem induct {P : Spelling → Prop} (scalar : ∀ {v}, IsScalar v → P v)
    (array : ∀ (inside : Gap) (items : List Item), (∀ item ∈ items, P item.value) →
      P (.array inside items))
    (object : ∀ (inside : Gap) (members : List Member), (∀ m ∈ members, P m.value) →
      P (.object inside members)) (v : Spelling) : P v := by
  have bounded (n : Nat) : ∀ v : Spelling, depth v < n → P v := by
    induction n with
    | zero => exact fun v bound => absurd bound v.depth.not_lt_zero
    | succ n ih =>
        intro v bound
        cases v with
        | array inside items =>
            exact array inside items fun item mem => ih item.value <|
              (itemDepth_le_iff.1 le_rfl item mem).trans_lt (Nat.lt_of_succ_lt_succ bound)
        | object inside members =>
            exact object inside members fun m mem => ih m.value <|
              (memberDepth_le_iff.1 le_rfl m mem).trans_lt (Nat.lt_of_succ_lt_succ bound)
        | _ => exact scalar trivial
  exact bounded (v.depth + 1) v (Nat.lt_succ_self _)

mutual

def reading? : Spelling → Option Json
  | .null => some .null
  | .bool b => some (.bool b)
  | .number n => some (.number n.exact)
  | .string l => (Literal.text? l).map .string
  | .array _ items => (itemReadings? items).map .array
  | .object _ members => (memberReadings? members).map ofMembers

def itemReadings? : List (ItemOf Spelling) → Option (List Json)
  | [] => some []
  | ⟨_, v, _⟩ :: rest => (reading? v).bind fun value => (itemReadings? rest).map (value :: ·)

def memberReadings? : List (MemberOf Spelling) → Option (List (String × Json))
  | [] => some []
  | ⟨_, key, _, _, v, _⟩ :: rest =>
    (Literal.text? key).bind fun k =>
      (reading? v).bind fun value => (memberReadings? rest).map ((k, value) :: ·)

end

theorem rest_unique {v v' : Spelling} {r r' : Bytes} (stops : Stops r) (stops' : Stops r')
    (same : v.bytes ++ r = v'.bytes ++ r') : r = r' := by
  -- A value ends where a reader that skips it stops.
  have skipped := skipValue_denotes.reads_here v stops
  rw [same, skipValue_denotes.reads_here v' stops'] at skipped
  exact (Prod.mk.inj (Option.some.inj skipped)).2.symm

theorem skipBlanks_bytes (gap : Gap) (v : Spelling) (rest : Bytes) :
    skipBlanks (Gap.bytes gap ++ (v.bytes ++ rest)) = v.bytes ++ rest := by
  obtain ⟨s, eq⟩ := exists_bytes_eq_cons v
  rw [eq]
  exact skipBlanks_visible (firstByte_visible v).1 gap (s ++ rest)

theorem first_unique {v v' : Spelling} {r r' : Bytes} (same : v.bytes ++ r = v'.bytes ++ r') :
    firstByte v = firstByte v' := by
  obtain ⟨s, eq⟩ := exists_bytes_eq_cons v
  obtain ⟨s', eq'⟩ := exists_bytes_eq_cons v'
  rw [eq, eq'] at same
  exact (List.cons.inj same).1

theorem value_unique {gap gap' : Gap} {v v' : Spelling} {r r' : Bytes}
    (same : Gap.bytes gap ++ (v.bytes ++ r) = Gap.bytes gap' ++ (v'.bytes ++ r')) :
    v.bytes ++ r = v'.bytes ++ r' := by
  rw [← skipBlanks_bytes gap v r, same, skipBlanks_bytes]

theorem visible_unique (b b' : UInt8) {gap gap' : Gap} {r r' : Bytes} (visible : isBlank b = false)
    (visible' : isBlank b' = false)
    (same : Gap.bytes gap ++ b :: r = Gap.bytes gap' ++ b' :: r') : b = b' ∧ r = r' := by
  have skipped := skipBlanks_visible visible gap r
  rw [same, skipBlanks_visible visible'] at skipped
  obtain ⟨first, others⟩ := List.cons.inj skipped
  exact ⟨first.symm, others.symm⟩

def Unique (v : Spelling) : Prop :=
  ∀ (v' : Spelling) (r r' : Bytes), Stops r → Stops r' → v.bytes ++ r = v'.bytes ++ r' →
    reading? v = reading? v'

theorem closing_ne {b : UInt8} {gap gap' : Gap} {v : Spelling} {r r' : Bytes}
    (visible : isBlank b = false) (other : firstByte v ≠ b) :
    Gap.bytes gap ++ b :: r ≠ Gap.bytes gap' ++ (v.bytes ++ r') := by
  intro same
  obtain ⟨s, eq⟩ := exists_bytes_eq_cons v
  rw [eq] at same
  exact other (visible_unique _ _ visible (firstByte_visible v).1 same).1.symm

theorem itemReadings?_unique {items items' : List Item} (unique : ∀ item ∈ items, Unique item.value)
    {gap gap' : Gap} {r r' : Bytes}
    (same : Gap.bytes gap ++ (itemBytes items ++ r) = Gap.bytes gap' ++ (itemBytes items' ++ r')) :
    itemReadings? items = itemReadings? items' := by
  induction items generalizing items' gap gap' with
  | nil =>
      cases items' with
      | nil => rfl
      | cons item' items' =>
          have closing := (visible_unique (byte ']') (byte ',') rfl rfl same).1
          cases closing
  | cons item items ih =>
      cases items' with
      | nil =>
          have closing := (visible_unique (byte ',') (byte ']') rfl rfl same).1
          cases closing
      | cons item' items' =>
          obtain ⟨before, v, after⟩ := item
          obtain ⟨before', v', after'⟩ := item'
          obtain ⟨first, others⟩ := List.forall_mem_cons.1 unique
          rw [itemBytes_cons, itemBytes_cons] at same
          have values := value_unique (visible_unique _ _ rfl rfl same).2
          have stops := stops_gap after (stops_itemBytes items r)
          have stops' := stops_gap after' (stops_itemBytes items' r')
          rw [itemReadings?, itemReadings?, first v' _ _ stops stops' values,
            ih others (rest_unique stops stops' values)]

theorem emptyArray_ne {inside inside' : Gap} {item : Item} {items : List Item} {r r' : Bytes} :
    (Spelling.array inside []).bytes ++ r ≠ (Spelling.array inside' (item :: items)).bytes ++ r' := by
  obtain ⟨before, v, after⟩ := item
  rw [arrayBytes_cons]
  simp only [Spelling.bytes, List.cons_append, List.append_assoc, List.nil_append]
  exact fun same => closing_ne rfl (firstByte_visible v).2 (List.cons.inj same).2

theorem array_unique {inside : Gap} {items : List Item}
    (unique : ∀ item ∈ items, Unique item.value) : Unique (.array inside items) := by
  intro v' r r' _ _ same
  obtain ⟨inside', items', rfl⟩ := eq_array_of_firstByte (first_unique same).symm
  rw [reading?, reading?]
  cases items with
  | nil =>
      cases items' with
      | nil => rfl
      | cons item' items' => exact absurd same emptyArray_ne
  | cons item items =>
      cases items' with
      | nil => exact absurd same.symm emptyArray_ne
      | cons item' items' =>
          obtain ⟨before, v, after⟩ := item
          obtain ⟨before', v', after'⟩ := item'
          rw [arrayBytes_cons, arrayBytes_cons] at same
          -- With a comma for the bracket these are the items of a longer array.
          have listed : Gap.bytes [] ++ (itemBytes (⟨inside ++ before, v, after⟩ :: items) ++ r) =
              Gap.bytes [] ++ (itemBytes (⟨inside' ++ before', v', after'⟩ :: items') ++ r') := by
            rw [itemBytes_cons, itemBytes_cons, (List.cons.inj same).2]
          have unique' : ∀ item ∈ ⟨inside ++ before, v, after⟩ :: items, Unique item.value :=
            List.forall_mem_cons.2 (List.forall_mem_cons.1 unique)
          have items_eq := itemReadings?_unique unique' listed
          rw [itemReadings?, itemReadings?] at items_eq ⊢
          rw [items_eq]

theorem memberReadings?_unique {members members' : List Member}
    (unique : ∀ m ∈ members, Unique m.value) {gap gap' : Gap} {r r' : Bytes}
    (same : Gap.bytes gap ++ (memberBytes members ++ r) =
      Gap.bytes gap' ++ (memberBytes members' ++ r')) :
    memberReadings? members = memberReadings? members' := by
  induction members generalizing members' gap gap' with
  | nil =>
      cases members' with
      | nil => rfl
      | cons m' members' =>
          have closing := (visible_unique (byte '\x7d') (byte ',') rfl rfl same).1
          cases closing
  | cons m members ih =>
      cases members' with
      | nil =>
          have closing := (visible_unique (byte ',') (byte '\x7d') rfl rfl same).1
          cases closing
      | cons m' members' =>
          obtain ⟨first, others⟩ := List.forall_mem_cons.1 unique
          rw [memberBytes_cons, memberBytes_cons] at same
          -- Comma, quote, key, colon and value are each found at the same place.
          have keys := (visible_unique (byte '"') (byte '"') rfl rfl
            (visible_unique _ _ rfl rfl same).2).2
          obtain ⟨key, behind⟩ := literal_unique keys
          have values := value_unique (visible_unique (byte ':') (byte ':') rfl rfl behind).2
          have stops := stops_gap m.after (stops_memberBytes members r)
          have stops' := stops_gap m'.after (stops_memberBytes members' r')
          have value := first m'.value _ _ stops stops' values
          have rest := ih others (rest_unique stops stops' values)
          obtain ⟨before, label, beforeColon, afterColon, v, after⟩ := m
          obtain ⟨before', label', beforeColon', afterColon', v', after'⟩ := m'
          simp only at key value
          rw [memberReadings?, memberReadings?, key, value, rest]

theorem emptyObject_ne {inside inside' : Gap} {m : Member} {members : List Member} {r r' : Bytes} :
    (Spelling.object inside []).bytes ++ r ≠ (Spelling.object inside' (m :: members)).bytes ++ r' := by
  rw [objectBytes_cons]
  simp only [Spelling.bytes, List.cons_append, List.append_assoc, List.nil_append]
  intro same
  cases (visible_unique (byte '\x7d') (byte '"') rfl rfl (List.cons.inj same).2).1

theorem object_unique {inside : Gap} {members : List Member}
    (unique : ∀ m ∈ members, Unique m.value) : Unique (.object inside members) := by
  intro v' r r' _ _ same
  obtain ⟨inside', members', rfl⟩ := eq_object_of_firstByte (first_unique same).symm
  rw [reading?, reading?]
  cases members with
  | nil =>
      cases members' with
      | nil => rfl
      | cons m' members' => exact absurd same emptyObject_ne
  | cons m members =>
      cases members' with
      | nil => exact absurd same.symm emptyObject_ne
      | cons m' members' =>
          rw [objectBytes_cons, objectBytes_cons] at same
          have listed : Gap.bytes [] ++
              (memberBytes ({ m with before := inside ++ m.before } :: members) ++ r) =
                Gap.bytes [] ++
                  (memberBytes ({ m' with before := inside' ++ m'.before } :: members') ++ r') := by
            rw [memberBytes_cons, memberBytes_cons, (List.cons.inj same).2]
          have unique' : ∀ m' ∈ { m with before := inside ++ m.before } :: members,
              Unique m'.value := List.forall_mem_cons.2 (List.forall_mem_cons.1 unique)
          have members_eq := memberReadings?_unique unique' listed
          rw [memberReadings?, memberReadings?] at members_eq ⊢
          rw [members_eq]

theorem scalar_unique {v : Spelling} (scalar : IsScalar v) : Unique v := by
  intro v' r r' stops stops' same
  have first := first_unique same
  cases v with
  | null => rw [eq_null_of_firstByte first.symm]
  | bool b =>
      cases v' with
      | bool b' => cases b <;> cases b' <;> first | rfl | cases first
      | number n' => exact absurd (by rw [← first]; cases b <;> decide) (firstByte_number n')
      | _ => cases b <;> cases first
  | number n =>
      cases v' with
      | number n' => rw [numeral_unique stops stops' same]
      | bool b' => exact absurd (by rw [first]; cases b' <;> decide) (firstByte_number n)
      | _ => exact absurd (by rw [first]; simp [firstByte]) (firstByte_number n)
  | string l =>
      obtain ⟨l', rfl⟩ := eq_string_of_firstByte first.symm
      simp only [bytes, List.cons_append, List.append_assoc, List.nil_append] at same
      rw [reading?, reading?, (literal_unique (List.cons.inj same).2).1]
  | array => exact scalar.elim
  | object => exact scalar.elim

theorem unique (v : Spelling) : Unique v := by
  induction v using induct with
  | scalar scalar => exact scalar_unique scalar
  | array inside items ih => exact array_unique ih
  | object inside members ih => exact object_unique ih

end Spelling

/-- However a text is taken apart by the grammar, its exact reading is the same. -/
theorem Document.reading?_unique {d d' : Document} (same : d.bytes = d'.bytes) :
    d.value.reading? = d'.value.reading? :=
  d.value.unique d'.value _ _ (stops_blanks d.after) (stops_blanks d'.after)
    (Spelling.value_unique same)

end LatencyGate.Json
