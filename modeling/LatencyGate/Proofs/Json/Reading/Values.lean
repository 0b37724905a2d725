import Mathlib
import LatencyGate.Json.Reader.Value
import LatencyGate.Proofs.Json.Reading.Lists
import LatencyGate.Proofs.Json.Reading.Numbers

namespace LatencyGate.Json.Reader

open Spelling (mapM?_cons keyed?_cons)

variable {α β σ : Type}

theorem firstByte_number (n : Numeral) :
    firstByte (.number n) ∉ ['n', 't', 'f', '"', '[', '\x7b'].map byte := by
  have digit (d : Fin 10) : digitByte d ∉ ['n', 't', 'f', '"', '[', '\x7b'].map byte := by
    revert d
    decide
  rw [firstByte]
  split
  · decide
  · exact digit n.first

theorem eq_null_of_firstByte {v : Spelling} (first : firstByte v = byte 'n') : v = .null := by
  cases v with
  | null => rfl
  | bool b => cases b <;> cases first
  | number n => exact absurd (by rw [first]; decide) (firstByte_number n)
  | _ => cases first

theorem eq_string_of_firstByte {v : Spelling} (first : firstByte v = byte '"') :
    ∃ l, v = .string l := by
  cases v with
  | string l => exact ⟨l, rfl⟩
  | bool b => cases b <;> cases first
  | number n => exact absurd (by rw [first]; decide) (firstByte_number n)
  | _ => cases first

theorem eq_array_of_firstByte {v : Spelling} (first : firstByte v = byte '[') :
    ∃ inside items, v = .array inside items := by
  cases v with
  | array inside items => exact ⟨inside, items, rfl⟩
  | bool b => cases b <;> cases first
  | number n => exact absurd (by rw [first]; decide) (firstByte_number n)
  | _ => cases first

theorem eq_object_of_firstByte {v : Spelling} (first : firstByte v = byte '\x7b') :
    ∃ inside members, v = .object inside members := by
  cases v with
  | object inside members => exact ⟨inside, members, rfl⟩
  | bool b => cases b <;> cases first
  | number n => exact absurd (by rw [first]; decide) (firstByte_number n)
  | _ => cases first

theorem firstByte_not_number {v : Spelling} (other : ∀ n, v ≠ .number n) :
    firstByte v ≠ byte '-' ∧ digit? (firstByte v) = none := by
  cases v with
  | number n => exact absurd rfl (other n)
  | bool b => cases b <;> exact ⟨by decide, rfl⟩
  | _ => exact ⟨nofun, rfl⟩

theorem numeralBytes_tail (n : Numeral) (rest : Bytes) :
    (Spelling.number n).bytes.tail ++ rest =
      if n.negative then digitByte n.first :: (n.tail ++ rest) else n.tail ++ rest := by
  simp only [Spelling.bytes, Numeral.bytes]
  split <;> rfl

theorem valueFrom_digitByte (nested : Option (Reader Json)) (d : Fin 10) :
    valueFrom nested (digitByte d) = do return .number (← numberFrom false d.val) := by
  fin_cases d <;> rfl

theorem result?_valueFrom_scalar (nested : Option (Reader Json)) (levels : Nat) {v : Spelling}
    (scalar : Spelling.IsScalar v) {rest : Bytes} (stops : Stops rest) :
    (valueFrom nested (firstByte v)).result? (v.bytes.tail ++ rest) =
      (Spelling.value? levels v).map (·, rest) := by
  cases v with
  | null =>
      change (word ['u', 'l', 'l'] >>= fun _ => pure .null : Reader Json).result?
        (Spelling.wordBytes ['u', 'l', 'l'] ++ rest) = _
      rw [result?_bind_some (result?_word _ rest), Spelling.value?]
      rfl
  | bool b =>
      cases b with
      | true =>
          change (word ['r', 'u', 'e'] >>= fun _ => pure (.bool true) : Reader Json).result?
            (Spelling.wordBytes ['r', 'u', 'e'] ++ rest) = _
          rw [result?_bind_some (result?_word _ rest), Spelling.value?]
          rfl
      | false =>
          change (word ['a', 'l', 's', 'e'] >>= fun _ => pure (.bool false) : Reader Json).result?
            (Spelling.wordBytes ['a', 'l', 's', 'e'] ++ rest) = _
          rw [result?_bind_some (result?_word _ rest), Spelling.value?]
          rfl
  | number n =>
      rw [numeralBytes_tail, firstByte, Spelling.value?]
      split
      · rename_i negative
        change (negativeNumber >>= fun n => pure (.number n) : Reader Json).result? _ = _
        rw [result?_bind, result?_negativeNumber negative stops]
        cases n.number? <;> rfl
      · rename_i positive
        have read := result?_numberFrom n stops
        rw [Bool.eq_false_iff.2 positive] at read
        rw [valueFrom_digitByte]
        change (numberFrom false n.first.val >>= fun n => pure (.number n) : Reader Json).result? _ = _
        rw [result?_bind, read]
        cases n.number? <;> rfl
  | string l =>
      change (string >>= fun s => pure (.string s) : Reader Json).result?
        ((Literal.bytes l ++ [byte '"']) ++ rest) = _
      rw [List.append_assoc]
      change Reader.result? _ (Literal.bytes l ++ byte '"' :: rest) = _
      rw [result?_bind, result?_string, Spelling.value?]
      cases Literal.text? l <;> rfl
  | array => exact scalar.elim
  | object => exact scalar.elim

theorem spelled_word_pure {w : List Char} {a b : α} {s r : Bytes}
    (ok : (word w >>= fun _ => pure a : Reader α).run s = .ok (b, r)) :
    s = Spelling.wordBytes w ++ r := by
  obtain ⟨_, t, taken, ok⟩ := run_bind_ok.1 ok
  obtain rfl := (run_pure_ok.1 ok).2
  exact spelled_word taken

theorem spelled_valueFrom {nested : Option (Reader Json)} {b : UInt8} {s r : Bytes} {j : Json}
    (ok : (valueFrom nested b).run s = .ok (j, r)) :
    (∃ v, Spelling.IsScalar v ∧ b :: s = v.bytes ++ r) ∨
      ∃ inner, nested = some inner ∧
        (b = byte '[' ∧ (arrayFrom inner).run s = .ok (j, r) ∨
          b = byte '\x7b' ∧ (objectFrom inner).run s = .ok (j, r)) := by
  unfold valueFrom at ok
  split at ok
  · rename_i same
    exact .inl ⟨.null, trivial, by rw [same, spelled_word_pure ok]; rfl⟩
  split at ok
  · rename_i same
    exact .inl ⟨.bool true, trivial, by rw [same, spelled_word_pure ok]; rfl⟩
  split at ok
  · rename_i same
    exact .inl ⟨.bool false, trivial, by rw [same, spelled_word_pure ok]; rfl⟩
  split at ok
  · rename_i same
    obtain ⟨_, t, taken, ok⟩ := run_bind_ok.1 ok
    obtain rfl := (run_pure_ok.1 ok).2
    obtain ⟨l, rfl⟩ := spelled_string taken
    refine .inl ⟨.string l, trivial, ?_⟩
    rw [same, Spelling.bytes, List.cons_append, List.append_assoc]
    rfl
  split at ok
  · rename_i same
    split at ok
    · cases ok
    · exact .inr ⟨_, rfl, .inl ⟨same, ok⟩⟩
  split at ok
  · rename_i same
    split at ok
    · cases ok
    · exact .inr ⟨_, rfl, .inr ⟨same, ok⟩⟩
  split at ok
  · rename_i minus
    obtain ⟨_, t, taken, ok⟩ := run_bind_ok.1 ok
    obtain rfl := (run_pure_ok.1 ok).2
    obtain ⟨n, eq⟩ := spelled_negativeNumber taken
    exact .inl ⟨.number n, trivial, by rw [minus, eq, Spelling.bytes]⟩
  split at ok
  · rename_i digit
    obtain ⟨first, rfl, rfl⟩ := exists_digit digit
    obtain ⟨_, t, taken, ok⟩ := run_bind_ok.1 ok
    obtain rfl := (run_pure_ok.1 ok).2
    obtain ⟨n, eq⟩ := (spelled_numberFrom taken).positive
    exact .inl ⟨.number n, trivial, by rw [eq, Spelling.bytes]⟩
  · cases ok

theorem foldlM?_map {f : α → Option β} {g : σ → β → σ} (xs : List α) (state : σ) :
    xs.foldlM (fun state x => (f x).map (g state)) state = (xs.mapM f).map (List.foldl g state) := by
  induction xs generalizing state with
  | nil => rfl
  | cons x xs ih =>
      rw [List.foldlM_cons, mapM?_cons]
      cases f x with
      | none => rfl
      | some y =>
          change List.foldlM _ (g state y) xs = _
          rw [ih]
          cases xs.mapM f <;> rfl

section
variable {inner : Reader Json} {meaning : Spelling → Option Json}

theorem result?_arrayFrom (denotes : Denotes inner meaning) (inside : Gap)
    (items : List Spelling.Item) (rest : Bytes) :
    (arrayFrom inner).result? ((Spelling.array inside items).bytes.tail ++ rest) =
      ((items.mapM fun item => meaning item.value).map Json.array).map (·, rest) := by
  have folded := result?_fold_items (fun state => denotes.map (· :: state)) inside items [] rest
  have reversed : (List.foldl (fun items item => item :: items) [] : List Json → _) = List.reverse := by
    funext items
    rw [List.foldl_eq_foldr_reverse, List.foldr_cons_nil]
  rw [foldlM?_map, reversed] at folded
  rw [arrayFrom, result?_bind]
  refine (congrArg (Option.bind · _) folded).trans ?_
  cases items.mapM fun item => meaning item.value with
  | none => rfl
  | some values =>
      change some (Json.array values.reverse.reverse, rest) = _
      rw [List.reverse_reverse]
      rfl

theorem spelled_arrayFrom (denotes : Denotes inner meaning) {s r : Bytes} {j : Json}
    (ok : (arrayFrom inner).run s = .ok (j, r)) :
    ∃ inside items, byte '[' :: s = (Spelling.array inside items).bytes ++ r := by
  obtain ⟨values, t, taken, ok⟩ := run_bind_ok.1 ok
  obtain ⟨inside, items, u, rfl, eq⟩ := spelled_fold_items (fun state => denotes.map (· :: state)) taken
  rw [run_next?_bind] at ok
  obtain rfl := (run_pure_ok.1 ok).2
  exact ⟨inside, items, eq⟩

theorem member_denotes (denotes : Denotes inner meaning) :
    DenotesMembers (member inner) fun state key v =>
      (Literal.text? key).bind fun k => (meaning v).map (setMember k · state) where
  reads state key beforeColon afterColon v rest stops := by
    rw [member, labelled, result?_bind, result?_string]
    cases Literal.text? key with
    | none => rfl
    | some k =>
        change Reader.result? _ (Gap.bytes beforeColon ++ byte ':' :: _) = _
        rw [result?_bind_some (result?_colon beforeColon _)]
        exact (denotes.map (setMember k · state)).reads afterColon v rest stops
  spelled state s next r read := by
    obtain ⟨k, t, taken, ok⟩ := run_bind_ok.1 read
    obtain ⟨key, rfl⟩ := spelled_string taken
    obtain ⟨_, u, separated, valued⟩ := run_bind_ok.1 ok
    obtain ⟨beforeColon, rfl⟩ := spelled_colon separated
    obtain ⟨afterColon, v, rfl⟩ := (denotes.map (setMember k · state)).spelled u next r valued
    exact ⟨key, beforeColon, afterColon, v, rfl⟩

theorem mapM_keyed (meaning : Spelling → Option α) (members : List Spelling.Member) :
    (members.mapM fun m => (Literal.text? m.key).bind fun k => (meaning m.value).map (k, ·)) =
      (Spelling.keyed? members).bind fun keyed =>
        keyed.mapM fun (k, v) => (meaning v).map (k, ·) := by
  induction members with
  | nil => rfl
  | cons m members ih =>
      rw [mapM?_cons, ih, keyed?_cons]
      cases Literal.text? m.key with
      | none => rfl
      | some k =>
          cases Spelling.keyed? members with
          | none => cases meaning m.value <;> rfl
          | some keyed =>
              change _ = List.mapM _ ((k, m.value) :: keyed)
              rw [mapM?_cons]
              rfl

theorem foldlM_members (members : List Spelling.Member) (state : List (String × Json)) :
    members.foldlM (fun state m => (Literal.text? m.key).bind fun k =>
        (meaning m.value).map (setMember k · state)) state =
      ((Spelling.keyed? members).bind fun keyed =>
        keyed.mapM fun (k, v) => (meaning v).map (k, ·)).map
          (List.foldl (fun object (key, value) => setMember key value object) state) := by
  rw [← mapM_keyed, ← foldlM?_map]
  congr
  funext state m
  cases Literal.text? m.key with
  | none => rfl
  | some k => cases meaning m.value <;> rfl

theorem result?_objectFrom (denotes : Denotes inner meaning) (inside : Gap)
    (members : List Spelling.Member) (rest : Bytes) :
    (objectFrom inner).result? ((Spelling.object inside members).bytes.tail ++ rest) =
      (((Spelling.keyed? members).bind fun keyed =>
        keyed.mapM fun (k, v) => (meaning v).map (k, ·)).map ofMembers).map (·, rest) := by
  have folded := result?_fold_members (member_denotes denotes) inside members [] rest
  rw [foldlM_members] at folded
  rw [objectFrom, result?_bind]
  refine (congrArg (Option.bind · _) folded).trans ?_
  cases (Spelling.keyed? members).bind _ <;> rfl

theorem spelled_objectFrom (denotes : Denotes inner meaning) {s r : Bytes} {j : Json}
    (ok : (objectFrom inner).run s = .ok (j, r)) :
    ∃ inside members, byte '\x7b' :: s = (Spelling.object inside members).bytes ++ r := by
  obtain ⟨object, t, taken, ok⟩ := run_bind_ok.1 ok
  obtain ⟨inside, members, u, rfl, eq⟩ := spelled_fold_members (member_denotes denotes) taken
  rw [run_next?_bind] at ok
  obtain rfl := (run_pure_ok.1 ok).2
  exact ⟨inside, members, eq⟩

end

theorem value_denotes (levels : Nat) : Denotes (value levels) (Spelling.value? levels) := by
  -- What is inside of brackets is read with one level less.
  induction levels with
  | zero =>
      constructor
      · intro gap v rest stops
        rw [value, result?_token_bytes]
        cases v with
        | array inside items => rfl
        | object inside members => rfl
        | _ => exact result?_valueFrom_scalar none 0 (by trivial) stops
      · intro s j r ok
        obtain ⟨gap, b, t, rfl, -, ok⟩ := spelled_token ok
        obtain ⟨v, -, eq⟩ | ⟨inner, nested, -⟩ := spelled_valueFrom ok
        · exact ⟨gap, v, by rw [eq]⟩
        · cases nested
  | succ levels ih =>
      constructor
      · intro gap v rest stops
        rw [value, result?_token_bytes]
        cases v with
        | array inside items => exact result?_arrayFrom ih inside items rest
        | object inside members => exact result?_objectFrom ih inside members rest
        | _ => exact result?_valueFrom_scalar _ (levels + 1) (by trivial) stops
      · intro s j r ok
        obtain ⟨gap, b, t, rfl, -, ok⟩ := spelled_token ok
        obtain ⟨v, -, eq⟩ | ⟨inner, nested, ⟨rfl, ok⟩ | ⟨rfl, ok⟩⟩ := spelled_valueFrom ok
        · exact ⟨gap, v, by rw [eq]⟩
        · obtain rfl := Option.some.inj nested
          obtain ⟨inside, items, eq⟩ := spelled_arrayFrom ih ok
          exact ⟨gap, .array inside items, by rw [eq]⟩
        · obtain rfl := Option.some.inj nested
          obtain ⟨inside, members, eq⟩ := spelled_objectFrom ih ok
          exact ⟨gap, .object inside members, by rw [eq]⟩

theorem result?_wrongType (expected : String) (b : UInt8) (s : Bytes) :
    (wrongType expected b : Reader α).result? s = none := by
  unfold wrongType
  split
  · rfl
  split
  · rfl
  · rw [result?_bind]
    cases (valueFrom none b).result? s with
    | none => rfl
    | some found =>
        obtain ⟨j, r⟩ := found
        cases j <;> rfl

theorem not_wrongType {expected : String} {b : UInt8} {s r : Bytes} {a : α} :
    (wrongType expected b).run s ≠ .ok (a, r) := by
  intro ok
  have refused := result?_of_ok ok
  rw [result?_wrongType] at refused
  cases refused

theorem text_denotes : Denotes text Spelling.text? where
  reads gap v rest stops := by
    rw [text, result?_token_bytes]
    by_cases quote : firstByte v = byte '"'
    · obtain ⟨l, rfl⟩ := eq_string_of_firstByte quote
      rw [if_pos quote]
      change string.result? (Literal.bytes l ++ [byte '"'] ++ rest) = _
      rw [List.append_assoc]
      exact result?_string l rest
    · have other : Spelling.text? v = none := by
        cases v with
        | string l => exact absurd rfl quote
        | _ => rfl
      rw [if_neg quote, result?_wrongType, other]
      rfl
  spelled s a r ok := by
    obtain ⟨gap, b, t, rfl, -, ok⟩ := spelled_token ok
    split at ok
    · rename_i quote
      obtain ⟨l, rfl⟩ := spelled_string ok
      refine ⟨gap, .string l, ?_⟩
      rw [quote, Spelling.bytes, List.cons_append, List.append_assoc]
      rfl
    · exact absurd ok not_wrongType

theorem result?_natural (n : Option Number) (rest : Bytes) :
    ((n.map (·, rest)).bind fun (n, r) => (natural n).result? r) =
      (n.bind fun
        | .natural n => some n
        | _ => none).map (·, rest) := by
  rcases n with _ | n
  · rfl
  · cases n <;> rfl

theorem unsigned_denotes : Denotes unsigned Spelling.natural? where
  reads gap v rest stops := by
    rw [unsigned, result?_token_bytes]
    by_cases number : ∃ n, v = .number n
    · obtain ⟨n, rfl⟩ := number
      rw [numeralBytes_tail, firstByte]
      split
      · rename_i negative
        rw [if_pos rfl, result?_bind, result?_negativeNumber negative stops]
        exact result?_natural n.number? rest
      · rename_i positive
        have read := result?_numberFrom n stops
        rw [Bool.eq_false_iff.2 positive] at read
        rw [if_neg (digitByte_ne n.first).2.1]
        simp only [digit?_digitByte]
        rw [result?_bind, read]
        exact result?_natural n.number? rest
    · have other : Spelling.natural? v = none := by
        cases v with
        | number n => exact absurd ⟨n, rfl⟩ number
        | _ => rfl
      obtain ⟨minus, digit⟩ := firstByte_not_number fun n same => number ⟨n, same⟩
      rw [if_neg minus]
      simp only [digit, result?_wrongType, other]
      rfl
  spelled s a r ok := by
    obtain ⟨gap, b, t, rfl, -, ok⟩ := spelled_token ok
    have rest_eq {n : Number} {t : Bytes} (ok : (natural n).run t = .ok (a, r)) : t = r := by
      cases n with
      | natural n => exact (run_pure_ok.1 ok).2
      | _ => cases ok
    split at ok
    · rename_i minus
      obtain ⟨n, t', taken, ok⟩ := run_bind_ok.1 ok
      obtain rfl := rest_eq ok
      obtain ⟨n, eq⟩ := spelled_negativeNumber taken
      exact ⟨gap, .number n, by rw [minus, eq, Spelling.bytes]⟩
    split at ok
    · rename_i digit
      obtain ⟨first, rfl, rfl⟩ := exists_digit digit
      obtain ⟨n, t', taken, ok⟩ := run_bind_ok.1 ok
      obtain rfl := rest_eq ok
      obtain ⟨n, eq⟩ := (spelled_numberFrom taken).positive
      exact ⟨gap, .number n, by rw [eq, Spelling.bytes]⟩
    · exact absurd ok not_wrongType

theorem optional_denotes {inner : Reader α} {meaning : Spelling → Option α}
    (denotes : Denotes inner meaning) :
    Denotes (optional inner) fun v => Spelling.optional? meaning (some v) where
  reads gap v rest stops := by
    obtain ⟨s, eq⟩ := exists_bytes_eq_cons v
    have skipped : blanks.result? (Gap.bytes gap ++ (v.bytes ++ rest)) = some ((), v.bytes ++ rest) := by
      rw [eq]
      exact result?_blanks (firstByte_visible v).1 gap (s ++ rest)
    have head : (v.bytes ++ rest).head? = some (firstByte v) := by
      rw [eq]
      rfl
    rw [optional, result?_bind_some skipped, result?_peek?_bind, head]
    by_cases null : firstByte v = byte 'n'
    · obtain rfl := eq_null_of_firstByte null
      rw [if_pos (congrArg some null)]
      change (word ['u', 'l', 'l'] >>= fun _ => pure none : Reader (Option α)).result?
        (Spelling.wordBytes ['u', 'l', 'l'] ++ rest) = _
      rw [result?_bind_some (result?_word _ rest)]
      rfl
    · have present : v ≠ .null := by
        rintro rfl
        exact null rfl
      rw [if_neg fun same => null (Option.some.inj same), Spelling.optional?_some meaning present]
      exact (denotes.map some).reads [] v rest stops
  spelled s a r ok := by
    obtain ⟨_, t, skipped, ok⟩ := run_bind_ok.1 ok
    obtain ⟨gap, eq⟩ := exists_gap s
    obtain rfl : skipBlanks s = t := (Prod.mk.inj (Except.ok.inj skipped)).2
    rw [run_peek?_bind] at ok
    split at ok
    · rename_i null
      obtain ⟨t, same⟩ := List.head?_eq_some_iff.1 null
      rw [same] at eq ok
      rw [run_next?_bind] at ok
      refine ⟨gap, .null, ?_⟩
      rw [eq, spelled_word_pure (s := t) ok]
      rfl
    · obtain ⟨gap', v, same⟩ := (denotes.map some).spelled _ a r ok
      exact ⟨gap ++ gap', v, by rw [eq, same, gap_append, List.append_assoc]⟩

end LatencyGate.Json.Reader
