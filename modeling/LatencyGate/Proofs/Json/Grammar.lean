import LatencyGate.Json.Reader

/-!
# The grammar of JSON texts

A `Spelling` is a value together with everything that its text may choose: the blanks between tokens,
the escapes of strings, the digits of numbers, the order of members and repeated keys. Every text of
RFC 8259 is the bytes of a spelling. The bytes of a string need not be UTF-8 here, and escapes for the
halves of a surrogate pair may stand alone.
-/

namespace LatencyGate.Json

open Reader (byte)

/-! ## Blanks -/

inductive Blank where
  | space
  | tab
  | lineFeed
  | carriageReturn
  deriving DecidableEq

def Blank.byte : Blank → UInt8
  | .space => 0x20
  | .tab => 0x09
  | .lineFeed => 0x0A
  | .carriageReturn => 0x0D

abbrev Gap := List Blank

def Gap.bytes (gap : Gap) : Bytes := gap.map Blank.byte

/-! ## Strings -/

structure HexDigit where
  value : Fin 16
  upper : Bool
  deriving DecidableEq

def HexDigit.byte (d : HexDigit) : UInt8 :=
  if d.value < 10 then .ofNat (0x30 + d.value)
  else if d.upper then .ofNat (0x41 + (d.value - 10))
  else .ofNat (0x61 + (d.value - 10))

def shortEscapes : List (Char × UInt8) := [
  ('"', 0x22), ('\\', 0x5C), ('/', 0x2F), ('b', 0x08), ('f', 0x0C), ('n', 0x0A), ('r', 0x0D),
  ('t', 0x09)]

inductive Piece where
  | plain (b : UInt8) (h : 0x20 ≤ b ∧ b ≠ byte '"' ∧ b ≠ byte '\\')
  | short (letter : Char) (meant : UInt8) (h : (letter, meant) ∈ shortEscapes)
  | unit (a b c d : HexDigit)

def Piece.bytes : Piece → Bytes
  | .plain b _ => [b]
  | .short letter _ _ => [byte '\\', byte letter]
  | .unit a b c d => [byte '\\', byte 'u', a.byte, b.byte, c.byte, d.byte]

abbrev Literal := List Piece

def Literal.bytes (l : Literal) : Bytes := l.flatMap Piece.bytes

/-! ## Numbers -/

abbrev Digits := List (Fin 10)

def digitByte (d : Fin 10) : UInt8 := .ofNat (0x30 + d)

def Digits.bytes (ds : Digits) : Bytes := ds.map digitByte

structure Exponent where
  upper : Bool
  sign : Option Bool
  first : Fin 10
  more : Digits

def Exponent.signBytes : Option Bool → Bytes
  | none => []
  | some true => [byte '-']
  | some false => [byte '+']

def Exponent.bytes (x : Exponent) : Bytes :=
  (if x.upper then byte 'E' else byte 'e') ::
    (signBytes x.sign ++ digitByte x.first :: Digits.bytes x.more)

/-- A number. Only zero itself starts with a zero; there is at least one digit behind a point. -/
structure Numeral where
  negative : Bool
  first : Fin 10
  more : Digits
  leading : first = 0 → more = []
  fraction : Option (Fin 10 × Digits)
  exponent : Option Exponent

namespace Numeral

def fractionBytes : Option (Fin 10 × Digits) → Bytes
  | none => []
  | some (d, ds) => byte '.' :: digitByte d :: Digits.bytes ds

def exponentBytes : Option Exponent → Bytes
  | none => []
  | some x => x.bytes

def tail (n : Numeral) : Bytes :=
  Digits.bytes n.more ++ (fractionBytes n.fraction ++ exponentBytes n.exponent)

def bytes (n : Numeral) : Bytes :=
  if n.negative then byte '-' :: digitByte n.first :: n.tail else digitByte n.first :: n.tail

end Numeral

/-! ## Values -/

structure ItemOf (α : Type) where
  before : Gap
  value : α
  after : Gap

structure MemberOf (α : Type) where
  before : Gap
  key : Literal
  beforeColon : Gap
  afterColon : Gap
  value : α
  after : Gap

/-- A value as it is written. The first blanks of a bracket are what an empty one holds. -/
inductive Spelling where
  | null
  | bool (b : Bool)
  | number (n : Numeral)
  | string (l : Literal)
  | array (inside : Gap) (items : List (ItemOf Spelling))
  | object (inside : Gap) (members : List (MemberOf Spelling))

namespace Spelling

abbrev Item := ItemOf Spelling

abbrev Member := MemberOf Spelling

def wordBytes (word : List Char) : Bytes := word.map byte

mutual

def bytes : Spelling → Bytes
  | .null => wordBytes ['n', 'u', 'l', 'l']
  | .bool true => wordBytes ['t', 'r', 'u', 'e']
  | .bool false => wordBytes ['f', 'a', 'l', 's', 'e']
  | .number n => n.bytes
  | .string l => byte '"' :: (Literal.bytes l ++ [byte '"'])
  | .array inside [] => byte '[' :: (Gap.bytes inside ++ [byte ']'])
  | .array inside (⟨before, v, after⟩ :: rest) =>
    byte '[' :: (Gap.bytes inside ++
      (Gap.bytes before ++ (bytes v ++ (Gap.bytes after ++ itemBytes rest))))
  | .object inside [] => byte '\x7b' :: (Gap.bytes inside ++ [byte '\x7d'])
  | .object inside (⟨before, key, beforeColon, afterColon, v, after⟩ :: rest) =>
    byte '\x7b' :: (Gap.bytes inside ++ (Gap.bytes before ++ byte '"' :: (Literal.bytes key ++
      byte '"' :: (Gap.bytes beforeColon ++ byte ':' :: (Gap.bytes afterColon ++
        (bytes v ++ (Gap.bytes after ++ memberBytes rest)))))))

def itemBytes : List (ItemOf Spelling) → Bytes
  | [] => [byte ']']
  | ⟨before, v, after⟩ :: rest =>
    byte ',' :: (Gap.bytes before ++ (bytes v ++ (Gap.bytes after ++ itemBytes rest)))

def memberBytes : List (MemberOf Spelling) → Bytes
  | [] => [byte '\x7d']
  | ⟨before, key, beforeColon, afterColon, v, after⟩ :: rest =>
    byte ',' :: (Gap.bytes before ++ byte '"' :: (Literal.bytes key ++
      byte '"' :: (Gap.bytes beforeColon ++ byte ':' :: (Gap.bytes afterColon ++
        (bytes v ++ (Gap.bytes after ++ memberBytes rest))))))

end

end Spelling

structure Document where
  before : Gap
  value : Spelling
  after : Gap

def Document.bytes (d : Document) : Bytes :=
  Gap.bytes d.before ++ (d.value.bytes ++ Gap.bytes d.after)

end LatencyGate.Json
