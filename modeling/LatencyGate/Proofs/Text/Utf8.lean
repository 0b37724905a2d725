import Mathlib
import LatencyGate.Json.Reader

namespace LatencyGate.Utf8

theorem encode_nil : encode [] = [] := rfl

theorem encode_cons (c : Char) (cs : List Char) :
    encode (c :: cs) = String.utf8EncodeChar c ++ encode cs :=
  List.flatMap_cons

theorem encode_append (cs ds : List Char) : encode (cs ++ ds) = encode cs ++ encode ds :=
  List.flatMap_append

theorem ofString_ofList (cs : List Char) : ofString (String.ofList cs) = encode cs := by
  rw [ofString, String.toList_ofList]

theorem ofString_append (s t : String) : ofString (s ++ t) = ofString s ++ ofString t := by
  rw [ofString, String.toList_append, encode_append]
  rfl

theorem utf8EncodeChar_ascii {c : Char} (ascii : c.toNat < 128) :
    String.utf8EncodeChar c = [Json.Reader.byte c] := by
  rw [String.utf8EncodeChar_eq_singleton]
  · rfl
  · rw [Char.utf8Size_eq_one_iff, UInt32.le_iff_toNat_le]
    exact Nat.le_of_lt_succ ascii

theorem le_of_mem_utf8EncodeChar {c : Char} (wide : 128 ≤ c.toNat) :
    ∀ b ∈ String.utf8EncodeChar c, 0x80 ≤ b := by
  have val : c.val.toNat = c.toNat := rfl
  intro b member
  unfold String.utf8EncodeChar at member
  simp only [val] at member
  rw [UInt8.le_iff_toNat_le]
  split at member
  · omega
  split at member
  · simp only [List.mem_cons, List.not_mem_nil, or_false] at member
    rcases member with rfl | rfl <;> simp <;> omega
  split at member
  · simp only [List.mem_cons, List.not_mem_nil, or_false] at member
    rcases member with rfl | rfl | rfl <;> simp <;> omega
  · simp only [List.mem_cons, List.not_mem_nil, or_false] at member
    rcases member with rfl | rfl | rfl | rfl <;> simp <;> omega

theorem toNat_byte {c : Char} (ascii : c.toNat < 128) : (Json.Reader.byte c).toNat = c.toNat := by
  change c.val.toUInt8.toNat = c.val.toNat
  rw [UInt32.toNat_toUInt8]
  exact Nat.mod_eq_of_lt (lt_trans ascii (by norm_num))

theorem firstChar?_encodeChar (c : Char) (rest : Bytes) :
    firstChar? (String.utf8EncodeChar c ++ rest) = some c := by
  have short : (String.utf8EncodeChar c).length ≤ 4 := by
    rw [String.length_utf8EncodeChar]
    exact c.utf8Size_le_four
  unfold firstChar?
  rw [List.take_append, List.take_of_length_le short, List.toByteArray_append]
  exact ByteArray.utf8DecodeChar?_utf8EncodeChar_append

theorem decodeFrom_encode (read cs : List Char) :
    decodeFrom read (encode cs) = (read.reverse ++ cs, []) := by
  induction cs generalizing read with
  | nil => simp [encode_nil, decodeFrom]
  | cons c cs ih =>
      have first := firstChar?_encodeChar c (encode cs)
      have size := String.length_utf8EncodeChar c
      rw [encode_cons]
      cases bytes : String.utf8EncodeChar c with
      | nil =>
          rw [bytes] at size
          exact absurd size.symm c.utf8Size_pos.ne'
      | cons b tail =>
          rw [bytes] at first size
          have dropped : (tail ++ encode cs).drop (c.utf8Size - 1) = encode cs := by
            rw [← size]
            simp
          rw [List.cons_append] at first ⊢
          rw [decodeFrom]
          simp only [first, dropped, ih]
          simp

theorem decode_encode (cs : List Char) : decode (encode cs) = (cs, []) :=
  decodeFrom_encode [] cs

theorem ofString_injective : Function.Injective ofString := by
  intro s t same
  have decoded := congrArg decode same
  rw [ofString, ofString, decode_encode, decode_encode, Prod.mk.injEq] at decoded
  exact String.toList_injective decoded.1

end LatencyGate.Utf8
