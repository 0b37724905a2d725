import Mathlib
import LatencyGate.Json.Reader.Value
import LatencyGate.Proofs.Json.Arrangement
import LatencyGate.Proofs.Json.Numbers
import LatencyGate.Proofs.Json.Strings

namespace LatencyGate.Json.Reader

variable {α β σ : Type}

/-- A reader takes just this text, whatever ends it. -/
def Reads (reader : Reader α) (text : List Char) (a : α) : Prop :=
  ∀ rest, Ends rest → reader.run (Utf8.encode text ++ rest) = .ok (a, rest)

theorem Reads.map {reader : Reader α} {text : List Char} {a : α} (reads : Reads reader text a)
    (f : α → β) : Reads (do return f (← reader)) text (f a) := by
  intro rest ends
  change (reader >>= fun a => pure (f a)).run _ = _
  rw [run_bind, reads rest ends]
  rfl

theorem skipBlanks_cons {b : UInt8} (visible : isBlank b = false) (s : Bytes) :
    skipBlanks (b :: s) = b :: s :=
  List.dropWhile_cons_of_neg (by rw [visible]; exact Bool.false_ne_true)

theorem run_token_cons {atEnd : Cause} {dispatch : UInt8 → Reader α} {b : UInt8}
    (visible : isBlank b = false) (s : Bytes) :
    (token atEnd dispatch).run (b :: s) = (dispatch b).run s := by
  simp only [token, skipBlanks_cons visible]

def digitChars : List Char := ['0', '1', '2', '3', '4', '5', '6', '7', '8', '9']

theorem mem_digitChars {c : Char} (digit : c.isDigit = true) : c ∈ digitChars := by
  obtain ⟨low, high⟩ := toNat_of_isDigit digit
  rw [← Char.ofNat_toNat c]
  interval_cases c.toNat <;> decide

def firstChars : List Char := ['n', 't', 'f', '"', '[', '\x7b', '-'] ++ digitChars

theorem byte_of_mem_firstChars {c : Char} (first : c ∈ firstChars) :
    isBlank (byte c) = false ∧ byte c ≠ byte ']' ∧ (byte c = byte 'n' → c = 'n') := by
  fin_cases first <;> decide

theorem encode_cons_of_mem_firstChars {c : Char} (first : c ∈ firstChars) (cs : List Char) :
    Utf8.encode (c :: cs) = byte c :: Utf8.encode cs := by
  have ascii : c.toNat < 128 := by
    fin_cases first <;> decide
  rw [Utf8.encode_cons, Utf8.utf8EncodeChar_ascii ascii]
  rfl

theorem digits_first (n : Nat) : ∃ c cs, digits n = c :: cs ∧ c ∈ firstChars ∧ c ≠ 'n' := by
  obtain ⟨c, cs, eq, digit, -⟩ := digits_eq_cons n
  refine ⟨c, cs, eq, List.mem_append_right _ (mem_digitChars digit), ?_⟩
  rintro rfl
  exact absurd digit (by decide)

theorem chars_first {v : Json} (integer : ∀ x, v ≠ .number (.float x)) :
    ∃ c cs, v.chars = c :: cs ∧ c ∈ firstChars ∧ (c = 'n' → v = .null) := by
  cases v with
  | null => exact ⟨_, _, rfl, by decide, fun _ => rfl⟩
  | bool b => cases b <;> exact ⟨_, _, rfl, by decide, nofun⟩
  | number n =>
      cases n with
      | natural n =>
          obtain ⟨c, cs, eq, first, other⟩ := digits_first n.toNat
          exact ⟨c, cs, eq, first, fun same => absurd same other⟩
      | negSucc n => exact ⟨_, _, rfl, by decide, nofun⟩
      | float x => exact absurd rfl (integer x)
  | string s => exact ⟨_, _, rfl, by decide, nofun⟩
  | array items => cases items <;> exact ⟨_, _, rfl, by decide, nofun⟩
  | object members => cases members <;> exact ⟨_, _, rfl, by decide, nofun⟩

theorem valueFrom_digit {c : Char} (digit : c.isDigit = true) (nested : Option (Reader Json)) :
    valueFrom nested (byte c) = do return .number (← numberFrom false (digitValue c)) := by
  have member := mem_digitChars digit
  fin_cases member <;> rfl

theorem encode_digits (negative : Bool) {n : Nat} {rest : Bytes} (fits : n < 0x10000000000000000)
    (ends : Ends rest) : ∃ c s, Utf8.encode (digits n) ++ rest = byte c :: s ∧ c.isDigit = true ∧
      (numberFrom negative (digitValue c)).run s = .ok (integer negative n, rest) := by
  obtain ⟨c, cs, eq, digit, all, value, leading⟩ := digits_eq_cons n
  refine ⟨c, Utf8.encode cs ++ rest, ?_, digit, run_numberFrom negative fits ends all value leading⟩
  rw [eq, encode_digit_cons digit, List.cons_append]

theorem not_blank_digit {c : Char} (digit : c.isDigit = true) : isBlank (byte c) = false :=
  (byte_of_mem_firstChars (List.mem_append_right _ (mem_digitChars digit))).1

theorem run_negativeNumber {n : Nat} {rest : Bytes} (fits : n < 0x10000000000000000)
    (ends : Ends rest) :
    negativeNumber.run (Utf8.encode (digits n) ++ rest) = .ok (integer true n, rest) := by
  obtain ⟨c, s, eq, digit, read⟩ := encode_digits true fits ends
  have taken : next?.run (byte c :: s) = .ok (some (byte c), s) := rfl
  rw [eq, negativeNumber, run_bind, taken]
  simp only [digit?_byte digit]
  exact read

theorem encode_quoted (s : String) (rest : Bytes) :
    Utf8.encode (quoted s) ++ rest =
      byte '"' :: (Utf8.encode (s.toList.flatMap escaped) ++ byte '"' :: rest) := by
  rw [quoted, List.cons_append, encode_cons_of_mem_firstChars (by decide), Utf8.encode_append,
    List.cons_append, List.append_assoc]
  rfl

theorem number_reads {n : Number} (integral : n.IsInteger) (nested : Option (Reader Json)) :
    Reads (token .endInValue (valueFrom nested)) n.chars (.number n) := by
  intro rest ends
  cases n with
  | natural n =>
      obtain ⟨c, s, eq, digit, read⟩ := encode_digits false n.toNat_lt ends
      rw [Number.chars, eq, run_token_cons (not_blank_digit digit), valueFrom_digit digit, run_bind,
        read]
      simp only [run_pure, integer, Bool.false_eq_true, ↓reduceIte, UInt64.ofNat_toNat]
  | negSucc n =>
      have read := run_negativeNumber (n := n.val + 1) (by omega) ends
      change (token .endInValue (valueFrom nested)).run
        (byte '-' :: (Utf8.encode (digits (n.val + 1)) ++ rest)) = _
      rw [run_token_cons (by decide)]
      change (negativeNumber >>= fun n => pure (.number n) : Reader Json).run _ = _
      rw [run_bind, read]
      have bounds : 0 < n.val + 1 ∧ n.val + 1 ≤ 0x8000000000000000 := by omega
      simp only [run_pure, integer, ↓reduceIte, dif_pos bounds, Nat.add_sub_cancel]
  | float x => exact integral.elim

theorem run_valueFrom_string (s : String) (nested : Option (Reader Json)) (rest : Bytes) :
    (token .endInValue (valueFrom nested)).run (Utf8.encode (quoted s) ++ rest) =
      .ok (.string s, rest) := by
  rw [encode_quoted, run_token_cons (by decide)]
  change (string >>= fun s => pure (.string s) : Reader Json).run _ = _
  rw [run_bind, run_string]
  rfl

theorem encode_comma (cs : List Char) : Utf8.encode (',' :: cs) = byte ',' :: Utf8.encode cs := rfl

section
variable {separator : Separator} {item : σ → Reader σ} {first : Bool} {state state' : σ}
  {s r r' : Bytes}

theorem foldFrom_done (done : (separator.another first).run s = .ok (false, r)) :
    foldFrom separator item first state s = .ok (state, r) := by
  rw [foldFrom]
  split
  · rename_i failed
    rw [done] at failed
    cases failed
  · rename_i ended
    rw [done] at ended
    cases ended
    rfl
  · rename_i more
    rw [done] at more
    cases more

theorem foldFrom_next (another : (separator.another first).run s = .ok (true, r))
    (taken : (item state).run r = .ok (state', r')) :
    foldFrom separator item first state s = foldFrom separator item false state' r' := by
  rw [foldFrom]
  split
  · rename_i failed
    rw [another] at failed
    cases failed
  · rename_i ended
    rw [another] at ended
    cases ended
  · rename_i more
    rw [another] at more
    cases more
    split
    · rename_i failed
      rw [taken] at failed
      cases failed
    · rename_i given
      rw [taken] at given
      cases given
      rfl

end

theorem ends_itemChars (items : List Json) (rest : Bytes) :
    Ends (Utf8.encode (itemChars items) ++ rest) := by
  cases items with
  | nil => exact ends_bracket rest
  | cons v items => exact ends_comma _

theorem ends_memberChars (members : List (String × Json)) (rest : Bytes) :
    Ends (Utf8.encode (memberChars members) ++ rest) := by
  cases members with
  | nil => exact ends_brace rest
  | cons member members => exact ends_comma _

theorem encode_chars_cons {v : Json} (integer : ∀ x, v ≠ .number (.float x)) :
    ∃ b s, Utf8.encode v.chars = b :: s ∧ isBlank b = false ∧ b ≠ byte ']' ∧
      (b = byte 'n' → v = .null) := by
  obtain ⟨c, cs, eq, first, null⟩ := chars_first integer
  obtain ⟨visible, open', letter⟩ := byte_of_mem_firstChars first
  refine ⟨byte c, Utf8.encode cs, ?_, visible, open', fun same => null (letter same)⟩
  rw [eq, encode_cons_of_mem_firstChars first]

theorem nextItem_first {v : Json} (integer : ∀ x, v ≠ .number (.float x)) (rest : Bytes) :
    (nextItem true).run (Utf8.encode v.chars ++ rest) =
      .ok (true, Utf8.encode v.chars ++ rest) := by
  obtain ⟨b, s, eq, visible, item, -⟩ := encode_chars_cons integer
  rw [eq, List.cons_append]
  simp only [nextItem, skipBlanks_cons visible, if_neg item, ↓reduceIte]

theorem nextItem_comma {v : Json} (integer : ∀ x, v ≠ .number (.float x)) (rest : Bytes) :
    (nextItem false).run (byte ',' :: (Utf8.encode v.chars ++ rest)) =
      .ok (true, Utf8.encode v.chars ++ rest) := by
  obtain ⟨b, s, eq, visible, item, -⟩ := encode_chars_cons integer
  have comma : skipBlanks (byte ',' :: b :: (s ++ rest)) = byte ',' :: b :: (s ++ rest) := rfl
  have separator : byte ',' ≠ byte ']' := by decide
  rw [eq, List.cons_append]
  simp only [nextItem, comma, if_neg separator, Bool.false_eq_true, ↓reduceIte,
    skipBlanks_cons visible, if_neg item]

def memberText (k : String) (v : Json) : List Char :=
  k.toList.flatMap escaped ++ '"' :: ':' :: v.chars

inductive Folds (item : σ → Reader σ) : σ → List (String × Json) → σ → Prop
  | nil (state : σ) : Folds item state [] state
  | cons {state next last : σ} {k : String} {v : Json} {members : List (String × Json)}
      (taken : Reads (item state) (memberText k v) next) (others : Folds item next members last) :
      Folds item state ((k, v) :: members) last

theorem encode_member (k : String) (v : Json) (members : List (String × Json)) (rest : Bytes) :
    Utf8.encode (quoted k ++ ':' :: chars v ++ memberChars members) ++ rest =
      byte '"' :: (Utf8.encode (memberText k v) ++ (Utf8.encode (memberChars members) ++ rest)) := by
  have text : quoted k ++ ':' :: chars v = '"' :: memberText k v := by
    simp [quoted, memberText]
  rw [text, List.cons_append, encode_cons_of_mem_firstChars (by decide), Utf8.encode_append,
    List.cons_append, List.append_assoc]

theorem foldFrom_members {item : σ → Reader σ} {state last : σ} {members : List (String × Json)}
    (folds : Folds item state members last) (rest : Bytes) :
    foldFrom memberSeparator item false state (Utf8.encode (memberChars members) ++ rest) =
      .ok (last, byte '\x7d' :: rest) := by
  induction folds with
  | nil state => exact foldFrom_done rfl
  | @cons state next last k v members taken others ih =>
      have comma : Utf8.encode (memberChars ((k, v) :: members)) ++ rest = byte ',' :: byte '"' ::
          (Utf8.encode (memberText k v) ++ (Utf8.encode (memberChars members) ++ rest)) := by
        rw [← encode_member]
        rfl
      rw [comma, ← ih]
      exact foldFrom_next rfl (taken _ (ends_memberChars members rest))

theorem run_fold_members {item : σ → Reader σ} {state last : σ} {members : List (String × Json)}
    (folds : Folds item state members last) (rest : Bytes) :
    ∃ s, Utf8.encode (Json.object members).chars ++ rest = byte '\x7b' :: s ∧
      (fold memberSeparator item state).run s = .ok (last, byte '\x7d' :: rest) := by
  cases folds with
  | nil => exact ⟨byte '\x7d' :: rest, rfl, foldFrom_done rfl⟩
  | @cons _ next _ k v members taken others =>
      refine ⟨byte '"' :: (Utf8.encode (memberText k v) ++
        (Utf8.encode (memberChars members) ++ rest)), ?_, ?_⟩
      · rw [← encode_member]
        rfl
      · rw [← foldFrom_members others]
        exact foldFrom_next rfl (taken _ (ends_memberChars members rest))

theorem encode_memberText (k : String) (v : Json) (rest : Bytes) :
    Utf8.encode (memberText k v) ++ rest = Utf8.encode (k.toList.flatMap escaped) ++
      byte '"' :: byte ':' :: (Utf8.encode v.chars ++ rest) := by
  rw [memberText, Utf8.encode_append, List.append_assoc]
  rfl

theorem run_colon (rest : Bytes) : colon.run (byte ':' :: rest) = .ok ((), rest) := rfl

theorem member_reads {reader : Reader Json} {k : String} {v w : Json}
    (reads : Reads reader v.chars w) (held : List (String × Json)) :
    Reads (member reader held) (memberText k v) (setMember k w held) := by
  intro rest ends
  have value := (reads.map fun w => setMember k w held) rest ends
  rw [encode_memberText, member, run_bind, run_string]
  dsimp only
  rw [run_bind, run_colon]
  exact value

def inner : Nat → Option (Reader Json)
  | 0 => none
  | levels + 1 => some (value levels)

theorem value_eq_token (levels : Nat) :
    value levels = token .endInValue (valueFrom (inner levels)) := by
  cases levels <;> rfl

theorem run_arrayFrom {item : Reader Json} {held : List Json} {s rest : Bytes}
    (read : foldFrom itemSeparator (fun items => return (← item) :: items) true [] s =
      .ok (held, byte ']' :: rest)) :
    (arrayFrom item).run s = .ok (.array held.reverse, rest) := by
  have folded : (fold itemSeparator (fun items => return (← item) :: items) []).run s =
    .ok (held, byte ']' :: rest) := read
  rw [arrayFrom, run_bind, folded]
  rfl

theorem run_objectFrom {reader : Reader Json} {members : List (String × Json)} {s rest : Bytes}
    (read : (fold memberSeparator (member reader) []).run s = .ok (members, byte '\x7d' :: rest)) :
    (objectFrom reader).run s = .ok (.object members, rest) := by
  rw [objectFrom, run_bind, read]
  rfl

mutual

theorem value_reads : ∀ (v : Json) (levels : Nat), v.Integral → v.depth ≤ levels →
    Reads (value levels) v.chars v.arranged
  | .null, levels, _, _ => by
      rw [value_eq_token]
      exact fun rest _ => rfl
  | .bool b, levels, _, _ => by
      rw [value_eq_token]
      cases b <;> exact fun rest _ => rfl
  | .number n, levels, integral, _ => by
      rw [value_eq_token]
      exact number_reads integral _
  | .string s, levels, _, _ => by
      rw [value_eq_token]
      exact fun rest _ => run_valueFrom_string s _ rest
  | .array [], levels + 1, _, _ => fun rest _ => run_arrayFrom (foldFrom_done rfl)
  | .array (v :: items), levels + 1, ⟨first, others⟩, shallow => fun rest _ => by
      have bounds := max_le_iff.1 (Nat.le_of_succ_le_succ shallow)
      have taken := (value_reads v levels first bounds.1).map (· :: [])
        (Utf8.encode (itemChars items) ++ rest) (ends_itemChars items rest)
      have read := items_read items levels [v.arranged] others bounds.2 rest
      rw [← foldFrom_next (nextItem_first (Integral.ne_float first) _) taken] at read
      have array := run_arrayFrom read
      rw [List.reverse_append, List.reverse_reverse] at array
      rw [chars, List.cons_append, encode_cons_of_mem_firstChars (by decide), Utf8.encode_append,
        List.cons_append, List.append_assoc]
      exact array
  | .object members, levels + 1, ⟨_, integral⟩, shallow => fun rest _ => by
      obtain ⟨s, eq, read⟩ := run_fold_members (members_fold members levels [] integral
        (Nat.le_of_succ_le_succ shallow)) rest
      rw [eq]
      exact run_objectFrom read

theorem items_read : ∀ (items : List Json) (levels : Nat) (held : List Json),
    EveryItem Number.IsInteger (fun _ => True) items → itemDepth items ≤ levels → ∀ rest,
      foldFrom itemSeparator (fun items => return (← value levels) :: items) false held
        (Utf8.encode (itemChars items) ++ rest) =
          .ok ((arrangedItems items).reverse ++ held, byte ']' :: rest)
  | [], levels, held, _, _, rest => foldFrom_done rfl
  | v :: items, levels, held, ⟨first, others⟩, shallow, rest => by
      have bounds := max_le_iff.1 shallow
      have taken := (value_reads v levels first bounds.1).map (· :: held)
        (Utf8.encode (itemChars items) ++ rest) (ends_itemChars items rest)
      have read := items_read items levels (v.arranged :: held) others bounds.2 rest
      rw [← foldFrom_next (nextItem_comma (Integral.ne_float first) _) taken] at read
      rw [itemChars, List.cons_append, encode_comma, Utf8.encode_append, List.cons_append,
        List.append_assoc, read, arrangedItems, List.reverse_cons, List.append_assoc]
      rfl

theorem members_fold : ∀ (members : List (String × Json)) (levels : Nat)
    (held : List (String × Json)), EveryMember Number.IsInteger (fun _ => True) members →
      memberDepth members ≤ levels → Folds (member (value levels)) held members
        ((arrangedMembers members).foldl (fun object (key, value) => setMember key value object)
          held)
  | [], _, held, _, _ => .nil held
  | (_, v) :: members, levels, held, ⟨first, others⟩, shallow =>
      .cons (member_reads (value_reads v levels first (le_trans (le_max_left _ _) shallow)) held)
        (members_fold members levels _ others (le_trans (le_max_right _ _) shallow))

end

end LatencyGate.Json.Reader
