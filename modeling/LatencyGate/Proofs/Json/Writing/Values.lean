import Mathlib
import LatencyGate.Proofs.Json.Writing.Numbers

namespace LatencyGate.Json

open Reader

def Visible (s : Bytes) : Prop := ∀ b ∈ s, 0x20 ≤ b

instance (s : Bytes) : Decidable (Visible s) := List.decidableBAll _ s

theorem visible_nil : Visible [] := nofun

theorem visible_cons {b : UInt8} {s : Bytes} : Visible (b :: s) ↔ 0x20 ≤ b ∧ Visible s :=
  List.forall_mem_cons

theorem visible_append {s s' : Bytes} : Visible (s ++ s') ↔ Visible s ∧ Visible s' :=
  List.forall_mem_append

theorem visible_digits (ds : Digits) : Visible (Digits.bytes ds) := by
  have digit (d : Fin 10) : 0x20 ≤ digitByte d := by
    revert d
    decide
  exact List.forall_mem_map.2 fun d _ => digit d

theorem visible_exponent (x : Option Exponent) : Visible (Numeral.exponentBytes x) := by
  cases x with
  | none => exact visible_nil
  | some x =>
      have digits := visible_digits (x.first :: x.more)
      have mark : 0x20 ≤ if x.upper then byte 'E' else byte 'e' := by
        cases x.upper <;> decide
      refine visible_cons.2 ⟨mark, visible_append.2 ⟨?_, digits⟩⟩
      rcases x.sign with - | - | - <;> decide

theorem visible_numeral (n : Numeral) : Visible n.bytes := by
  have fraction : Visible (Numeral.fractionBytes n.fraction) := by
    cases n.fraction with
    | none => exact visible_nil
    | some digits => exact visible_cons.2 ⟨by decide, visible_digits (digits.1 :: digits.2)⟩
  have whole := visible_digits (n.first :: n.more)
  rw [Numeral.bytes_eq]
  refine visible_append.2 ⟨by cases n.negative <;> decide, ?_⟩
  exact visible_append.2 ⟨whole, visible_append.2 ⟨fraction, visible_exponent n.exponent⟩⟩

theorem visible_piece (p : Piece) : Visible p.bytes := by
  have hex (d : HexDigit) : 0x20 ≤ d.byte := by
    obtain ⟨value, upper⟩ := d
    revert value upper
    decide
  cases p with
  | plain b h => exact visible_cons.2 ⟨h.1, visible_nil⟩
  | short letter b h =>
      have letters : ∀ e ∈ shortEscapes, Visible [byte '\\', byte e.1] := by decide
      exact letters _ h
  | unit a b c d => simp only [Piece.bytes, visible_cons, hex, visible_nil, and_true]; decide

theorem visible_literal (l : Literal) : Visible (Literal.bytes l) := by
  intro b member
  obtain ⟨p, -, member⟩ := List.mem_flatMap.1 member
  exact visible_piece p b member

theorem exists_literal (s : String) :
    ∃ l : Literal, Literal.bytes l = Utf8.encode (s.toList.flatMap escaped) ∧
      Literal.text? l = some s := by
  obtain ⟨l, bytes⟩ := spelled_string (run_string s [])
  have read := result?_string l []
  rw [← bytes, result?_of_ok (run_string s [])] at read
  obtain ⟨text, found, same⟩ := Option.map_eq_some_iff.1 read.symm
  refine ⟨l, (List.append_left_injective _ bytes).symm, ?_⟩
  rw [found, (Prod.mk.inj same).1]

/-- A spelling of the text of a value from which the value is read. -/
structure Written (v : Json) (w : Spelling) : Prop where
  bytes : w.bytes = Utf8.encode v.chars
  reading_eq : w.reading? = some v
  visible : Visible w.bytes

structure ItemsWritten (values : List Json) (items : List Spelling.Item) : Prop where
  bytes : Spelling.itemBytes items = Utf8.encode (itemChars values)
  reading_eq : Spelling.itemReadings? items = some values
  visible : Visible (Spelling.itemBytes items)

structure MembersWritten (values : List (String × Json)) (members : List Spelling.Member) : Prop where
  bytes : Spelling.memberBytes members = Utf8.encode (memberChars values)
  reading_eq : Spelling.memberReadings? members = some values
  visible : Visible (Spelling.memberBytes members)

section
variable {v : Json} {w : Spelling} {values : List Json} {items : List Spelling.Item}

theorem ItemsWritten.cons (written : Written v w) (rest : ItemsWritten values items) :
    ItemsWritten (v :: values) (⟨[], w, []⟩ :: items) := by
  have bytes : Spelling.itemBytes (⟨[], w, []⟩ :: items) =
      byte ',' :: (w.bytes ++ Spelling.itemBytes items) := rfl
  refine ⟨?_, ?_, ?_⟩
  · rw [bytes, written.bytes, rest.bytes, ← Utf8.encode_append]
    rfl
  · rw [Spelling.itemReadings?, written.reading_eq, rest.reading_eq]
    rfl
  · rw [bytes]
    exact visible_cons.2 ⟨by decide, visible_append.2 ⟨written.visible, rest.visible⟩⟩

theorem Written.array (written : Written v w) (rest : ItemsWritten values items) :
    Written (.array (v :: values)) (.array [] (⟨[], w, []⟩ :: items)) := by
  have bytes : (Spelling.array [] (⟨[], w, []⟩ :: items)).bytes =
      byte '[' :: (w.bytes ++ Spelling.itemBytes items) := rfl
  refine ⟨?_, ?_, ?_⟩
  · rw [bytes, written.bytes, rest.bytes, ← Utf8.encode_append]
    rfl
  · rw [Spelling.reading?, (ItemsWritten.cons written rest).reading_eq]
    rfl
  · rw [bytes]
    exact visible_cons.2 ⟨by decide, visible_append.2 ⟨written.visible, rest.visible⟩⟩

end

section
variable {k : String} {l : Literal} {v : Json} {w : Spelling} {values : List (String × Json)}
  {members : List Spelling.Member}

theorem encode_member_chars (key : Literal.bytes l = Utf8.encode (k.toList.flatMap escaped))
    (written : Written v w) (rest : MembersWritten values members) :
    byte '"' :: (Literal.bytes l ++ byte '"' :: byte ':' :: (w.bytes ++ Spelling.memberBytes members)) =
      Utf8.encode (quoted k ++ ':' :: chars v ++ memberChars values) := by
  have encoded := encode_member k v values []
  rw [List.append_nil, List.append_nil, encode_memberText, ← key, ← written.bytes, ← rest.bytes]
    at encoded
  exact encoded.symm

theorem visible_member (written : Written v w) (rest : MembersWritten values members) :
    Visible (byte '"' :: (Literal.bytes l ++
      byte '"' :: byte ':' :: (w.bytes ++ Spelling.memberBytes members))) := by
  have value := visible_append.2 ⟨written.visible, rest.visible⟩
  have behind := visible_cons.2 ⟨(by decide : 0x20 ≤ byte ':'), value⟩
  exact visible_cons.2 ⟨by decide, visible_append.2
    ⟨visible_literal l, visible_cons.2 ⟨by decide, behind⟩⟩⟩

theorem MembersWritten.cons (key : Literal.bytes l = Utf8.encode (k.toList.flatMap escaped))
    (text : Literal.text? l = some k) (written : Written v w) (rest : MembersWritten values members) :
    MembersWritten ((k, v) :: values) (⟨[], l, [], [], w, []⟩ :: members) := by
  refine ⟨?_, ?_, ?_⟩
  · exact congrArg (byte ',' :: ·) (encode_member_chars key written rest)
  · rw [Spelling.memberReadings?, text, written.reading_eq, rest.reading_eq]
    rfl
  · exact visible_cons.2 ⟨by decide, visible_member written rest⟩

theorem Written.object (key : Literal.bytes l = Utf8.encode (k.toList.flatMap escaped))
    (text : Literal.text? l = some k) (written : Written v w) (rest : MembersWritten values members)
    (ascending : (((k, v) :: values).map Prod.fst).Pairwise (· < ·)) :
    Written (.object ((k, v) :: values)) (.object [] (⟨[], l, [], [], w, []⟩ :: members)) := by
  refine ⟨?_, ?_, ?_⟩
  · exact congrArg (byte '\x7b' :: ·) (encode_member_chars key written rest)
  · rw [Spelling.reading?, (MembersWritten.cons key text written rest).reading_eq, Option.map_some,
      ofMembers_ascending ascending]
  · exact visible_cons.2 ⟨by decide, visible_member written rest⟩

end

theorem exists_written_string (s : String) : ∃ w, Written (.string s) w := by
  obtain ⟨l, bytes, text⟩ := exists_literal s
  refine ⟨.string l, ?_, by rw [Spelling.reading?, text]; rfl, ?_⟩
  · have quoted := encode_quoted s []
    rw [List.append_nil] at quoted
    rw [chars, quoted, ← bytes]
    rfl
  · exact visible_cons.2 ⟨by decide, visible_append.2 ⟨visible_literal l, by decide⟩⟩

abbrev Ascending : List String → Prop := List.Pairwise (· < ·)

mutual

theorem exists_written : ∀ v : Json, Everywhere Number.IsFinite Ascending v → ∃ w, Written v w
  | .null, _ => ⟨.null, rfl, rfl, by decide⟩
  | .bool true, _ => ⟨.bool true, rfl, rfl, by decide⟩
  | .bool false, _ => ⟨.bool false, rfl, rfl, by decide⟩
  | .number n, finite => by
      obtain ⟨m, bytes, reading_eq⟩ := exists_numeral finite
      exact ⟨.number m, bytes, by rw [Spelling.reading?, reading_eq], visible_numeral m⟩
  | .string s, _ => exists_written_string s
  | .array [], _ => ⟨.array [] [], rfl, rfl, by decide⟩
  | .array (v :: values), ⟨first, others⟩ => by
      obtain ⟨w, written⟩ := exists_written v first
      obtain ⟨items, rest⟩ := exists_items_written values others
      exact ⟨_, written.array rest⟩
  | .object [], _ => ⟨.object [] [], rfl, rfl, by decide⟩
  | .object ((k, v) :: values), ⟨keys, first, others⟩ => by
      obtain ⟨l, key, text⟩ := exists_literal k
      obtain ⟨w, written⟩ := exists_written v first
      obtain ⟨members, rest⟩ := exists_members_written values others
      exact ⟨_, written.object key text rest keys⟩

theorem exists_items_written : ∀ values : List Json, EveryItem Number.IsFinite Ascending values →
    ∃ items, ItemsWritten values items
  | [], _ => ⟨[], rfl, rfl, by decide⟩
  | v :: values, ⟨first, others⟩ => by
      obtain ⟨w, written⟩ := exists_written v first
      obtain ⟨items, rest⟩ := exists_items_written values others
      exact ⟨_, rest.cons written⟩

theorem exists_members_written : ∀ values : List (String × Json),
    EveryMember Number.IsFinite Ascending values → ∃ members, MembersWritten values members
  | [], _ => ⟨[], rfl, rfl, by decide⟩
  | (k, v) :: values, ⟨first, others⟩ => by
      obtain ⟨l, key, text⟩ := exists_literal k
      obtain ⟨w, written⟩ := exists_written v first
      obtain ⟨members, rest⟩ := exists_members_written values others
      exact ⟨_, rest.cons key text written⟩

end

theorem chars_injective {v v' : Json} (finite : Everywhere Number.IsFinite Ascending v)
    (finite' : Everywhere Number.IsFinite Ascending v')
    (same : Utf8.encode v.chars = Utf8.encode v'.chars) : v = v' := by
  obtain ⟨w, written⟩ := exists_written v finite
  obtain ⟨w', written'⟩ := exists_written v' finite'
  have bytes : w.bytes = w'.bytes := by rw [written.bytes, same, written'.bytes]
  have reading := w.unique w' [] [] stops_nil stops_nil (by rw [bytes])
  rw [written.reading_eq, written'.reading_eq] at reading
  exact Option.some.inj reading

end LatencyGate.Json
