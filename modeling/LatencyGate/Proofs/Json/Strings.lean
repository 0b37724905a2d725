import Mathlib
import LatencyGate.Json.Printer
import LatencyGate.Json.Reader.Quoted
import LatencyGate.Proofs.Text.Utf8

namespace LatencyGate.Json.Reader

theorem stringBytesFrom_quote (read rest : Bytes) :
    stringBytesFrom read (byte '"' :: rest) = .ok (read.reverse, rest) := by
  rw [stringBytesFrom]
  rfl

theorem stringBytesFrom_escape {read rest rest' bytes : Bytes}
    (h : escape.run rest = .ok (bytes, rest')) :
    stringBytesFrom read (byte '\\' :: rest) = stringBytesFrom (pushAll bytes read) rest' := by
  rw [stringBytesFrom, if_neg (by decide), if_pos rfl]
  split
  · rename_i failed
    rw [h] at failed
    cases failed
  · rename_i taken
    rw [h] at taken
    cases taken
    rfl

def IsPlain (b : UInt8) : Prop := b ≠ byte '"' ∧ b ≠ byte '\\' ∧ ¬b < 0x20

theorem stringBytesFrom_plain {bytes : Bytes} (read rest : Bytes) (plain : ∀ b ∈ bytes, IsPlain b) :
    stringBytesFrom read (bytes ++ rest) = stringBytesFrom (pushAll bytes read) rest := by
  induction bytes generalizing read with
  | nil => rfl
  | cons b bytes ih =>
      obtain ⟨quote, backslash, control⟩ := plain b List.mem_cons_self
      rw [List.cons_append, stringBytesFrom, if_neg quote, if_neg backslash, if_neg control,
        ih _ fun b member => plain b (List.mem_cons_of_mem _ member)]
      simp [pushAll]

theorem hexValue?_controlDigits {n : Nat} (h : n < 0x20) :
    hexValue? (byte '0') (byte '0') (byte (Nat.digitChar (n / 16)))
      (byte (Nat.digitChar (n % 16))) = some n := by
  revert n
  decide

theorem escape_control {c : Char} (control : c.toNat < 0x20) (rest : Bytes) :
    escape.run (Utf8.encode ('u' :: controlDigits c) ++ rest) =
      .ok (String.utf8EncodeChar c, rest) := by
  have digit {n : Nat} (h : n < 16) : (Nat.digitChar n).toNat < 128 := by
    revert n
    decide
  have bytes : Utf8.encode ('u' :: controlDigits c) = [byte 'u', byte '0', byte '0',
      byte (Nat.digitChar (c.toNat / 16)), byte (Nat.digitChar (c.toNat % 16))] := by
    simp only [controlDigits, Utf8.encode_cons, Utf8.encode_nil, List.append_nil,
      Utf8.utf8EncodeChar_ascii (digit (by omega : c.toNat / 16 < 16)),
      Utf8.utf8EncodeChar_ascii (digit (by omega : c.toNat % 16 < 16))]
    rfl
  have four : hexFour.run (byte '0' :: byte '0' :: byte (Nat.digitChar (c.toNat / 16)) ::
      byte (Nat.digitChar (c.toNat % 16)) :: rest) = .ok (c.toNat, rest) := by
    simp only [hexFour, hexValue?_controlDigits control]
  have small : isTrailing c.toNat = false ∧ isLeading c.toNat = false := by
    unfold isTrailing isLeading
    constructor <;> simp <;> omega
  have hex : hexEscape.run (byte '0' :: byte '0' :: byte (Nat.digitChar (c.toNat / 16)) ::
      byte (Nat.digitChar (c.toNat % 16)) :: rest) = .ok (c, rest) := by
    rw [hexEscape, run_bind, four]
    simp only [small.1, small.2, Bool.false_eq_true, ↓reduceIte, run_pure, Char.ofNat_toNat]
  rw [bytes]
  change (hexEscape >>= fun d => pure (String.utf8EncodeChar d) : Reader Bytes).run _ = _
  rw [run_bind]
  simp only [List.cons_append, List.nil_append, List.tail_cons, hex, run_pure]

theorem isPlain_of_mem_utf8EncodeChar {c : Char} (quote : c ≠ '"') (backslash : c ≠ '\\')
    (control : ¬c.toNat < 0x20) : ∀ b ∈ String.utf8EncodeChar c, IsPlain b := by
  intro b member
  by_cases ascii : c.toNat < 128
  · rw [Utf8.utf8EncodeChar_ascii ascii, List.mem_singleton] at member
    subst member
    have toNat := Utf8.toNat_byte ascii
    have of_eq {d : Char} (small : d.toNat < 128) (same : byte c = byte d) : c = d := by
      rw [← UInt8.toNat_inj, toNat, Utf8.toNat_byte small] at same
      exact Char.toNat_inj.1 same
    refine ⟨fun same => quote (of_eq (by decide) same),
      fun same => backslash (of_eq (by decide) same), ?_⟩
    rw [UInt8.lt_iff_toNat_lt, toNat]
    exact control
  · have wide := Utf8.le_of_mem_utf8EncodeChar (not_lt.1 ascii) b member
    rw [UInt8.le_iff_toNat_le] at wide
    refine ⟨?_, ?_, ?_⟩
    · rintro rfl
      exact absurd wide (by decide)
    · rintro rfl
      exact absurd wide (by decide)
    · rw [UInt8.lt_iff_toNat_lt]
      exact fun less => absurd (wide.trans_lt less) (by decide)

theorem stringBytesFrom_escaped (c : Char) (read rest : Bytes) :
    stringBytesFrom read (Utf8.encode (escaped c) ++ rest) =
      stringBytesFrom (pushAll (String.utf8EncodeChar c) read) rest := by
  unfold escaped
  -- The short escapes come first, in the printer's order.
  split
  · subst_vars; exact stringBytesFrom_escape rfl
  split
  · subst_vars; exact stringBytesFrom_escape rfl
  split
  · subst_vars; exact stringBytesFrom_escape rfl
  split
  · subst_vars; exact stringBytesFrom_escape rfl
  split
  · subst_vars; exact stringBytesFrom_escape rfl
  split
  · subst_vars; exact stringBytesFrom_escape rfl
  split
  · subst_vars; exact stringBytesFrom_escape rfl
  split
  · rename_i control
    exact stringBytesFrom_escape (escape_control control rest)
  · rw [Utf8.encode_cons, Utf8.encode_nil, List.append_nil]
    apply stringBytesFrom_plain
    apply isPlain_of_mem_utf8EncodeChar <;> assumption

theorem stringBytesFrom_flatMap_escaped (cs : List Char) (read rest : Bytes) :
    stringBytesFrom read (Utf8.encode (cs.flatMap escaped) ++ byte '"' :: rest) =
      .ok (read.reverse ++ Utf8.encode cs, rest) := by
  induction cs generalizing read with
  | nil =>
      rw [List.flatMap_nil, Utf8.encode_nil, List.nil_append, List.append_nil]
      exact stringBytesFrom_quote read rest
  | cons c cs ih =>
      rw [List.flatMap_cons, Utf8.encode_append, List.append_assoc, stringBytesFrom_escaped, ih,
        Utf8.encode_cons]
      simp [pushAll]

theorem run_string (s : String) (rest : Bytes) :
    string.run (Utf8.encode (s.toList.flatMap escaped) ++ byte '"' :: rest) = .ok (s, rest) := by
  have bytes : stringBytes.run (Utf8.encode (s.toList.flatMap escaped) ++ byte '"' :: rest) =
      .ok (Utf8.encode s.toList, rest) :=
    stringBytesFrom_flatMap_escaped s.toList [] rest
  rw [string, run_bind, bytes]
  simp only [Utf8.decode_encode, ↓reduceIte, run_pure, String.ofList_toList]

end LatencyGate.Json.Reader
