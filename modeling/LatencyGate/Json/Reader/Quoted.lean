import LatencyGate.Json.Reader

namespace LatencyGate.Json.Reader

def hexDigit? (b : UInt8) : Option Nat :=
  if 0x30 ≤ b ∧ b ≤ 0x39 then some (b.toNat - 0x30)
  else if 0x41 ≤ b ∧ b ≤ 0x46 then some (b.toNat - 0x41 + 10)
  else if 0x61 ≤ b ∧ b ≤ 0x66 then some (b.toNat - 0x61 + 10)
  else none

def hexValue? (a b c d : UInt8) : Option Nat := do
  pure ((((← hexDigit? a) * 16 + (← hexDigit? b)) * 16 + (← hexDigit? c)) * 16 + (← hexDigit? d))

/-- Takes four hexadecimal digits. Where fewer than four bytes are left, the string has no end. -/
def hexFour : Reader Nat where
  run
    | a :: b :: c :: d :: r =>
      match hexValue? a b c d with
      | some n => .ok (n, r)
      | none => .error ⟨.invalidEscape, r.length, 0⟩
    | _ => .error ⟨.endInString, 0, 0⟩
  rest_le {s n t} h := by
    split at h
    · split at h
      · injection h with h
        injection h with _ h
        subst h
        simp only [List.length_cons]; omega
      · nomatch h
    · nomatch h

def shortEscape? (b : UInt8) : Option UInt8 :=
  if b = byte '"' ∨ b = byte '\\' ∨ b = byte '/' then some b
  else if b = byte 'b' then some 0x08
  else if b = byte 'f' then some 0x0C
  else if b = byte 'n' then some 0x0A
  else if b = byte 'r' then some 0x0D
  else if b = byte 't' then some 0x09
  else none

def pairByte (expected : UInt8) : Reader Unit := do
  match ← next? with
  | none => fail .endInString
  | some b => if b = expected then pure () else fail .unfinishedSurrogatePair

def isLeading (n : Nat) : Bool := 0xD800 ≤ n && n ≤ 0xDBFF

def isTrailing (n : Nat) : Bool := 0xDC00 ≤ n && n ≤ 0xDFFF

def pairChar (leading trailing : Nat) : Char :=
  .ofNat (0x10000 + (leading - 0xD800) * 0x400 + (trailing - 0xDC00))

def hexEscape : Reader Char := do
  let n ← hexFour
  if isTrailing n then fail .loneSurrogate
  else if isLeading n then
    pairByte (byte '\\')
    pairByte (byte 'u')
    let m ← hexFour
    if isTrailing m then pure (pairChar n m) else fail .loneSurrogate
  else pure (.ofNat n)

def escape : Reader Bytes := do
  match ← next? with
  | none => fail .endInString
  | some b =>
    match shortEscape? b with
    | some c => pure [c]
    | none =>
      if b = byte 'u' then return String.utf8EncodeChar (← hexEscape)
      else fail .invalidEscape

def pushAll (bytes read : Bytes) : Bytes := bytes.reverse ++ read

def stringBytesFrom (read : Bytes) : Bytes → Except Fault (Bytes × Bytes)
  | [] => .error ⟨.endInString, 0, 0⟩
  | b :: r =>
    if b = byte '"' then .ok (read.reverse, r)
    else if b = byte '\\' then
      match _h : escape.run r with
      | .error e => .error e
      | .ok (bytes, r') => stringBytesFrom (pushAll bytes read) r'
    else if b < 0x20 then .error ⟨.controlCharacter, r.length, 0⟩
    else stringBytesFrom (b :: read) r
termination_by s => s.length
decreasing_by
  · have := escape.rest_le _h
    simp only [List.length_cons]; omega
  · simp

theorem stringBytesFrom_length_le (read s : Bytes) : ∀ {bytes r},
    stringBytesFrom read s = .ok (bytes, r) → r.length ≤ s.length := by
  fun_induction stringBytesFrom read s with
  | case1 => nofun
  | case2 => intro bytes r h; cases h; simp
  | case3 => nofun
  | case4 read r bytes r' h _ ih =>
    intro _ t ht
    have := ih ht
    have := escape.rest_le h
    simp only [List.length_cons]; omega
  | case5 => nofun
  | case6 read b r _ _ _ ih =>
    intro _ t ht
    have := ih ht
    simp only [List.length_cons]; omega

def stringBytes : Reader Bytes where
  run := stringBytesFrom []
  rest_le := stringBytesFrom_length_le [] _

def string : Reader String := do
  let (cs, invalid) := Utf8.decode (← stringBytes)
  if invalid = [] then pure (.ofList cs) else failEarlier .invalidUtf8 invalid.length

end LatencyGate.Json.Reader
