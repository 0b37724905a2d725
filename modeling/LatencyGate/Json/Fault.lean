import LatencyGate.Json.Printer
import LatencyGate.Text

namespace LatencyGate.Json

inductive Found where
  | null
  | bool (b : Bool)
  | number (n : Number)
  | string (s : String)
  | array
  | object
  deriving DecidableEq

inductive Cause where
  | endInValue
  | endInArray
  | endInObject
  | endInString
  | expectedValue
  | expectedWord
  | expectedColon
  | expectedItemEnd
  | expectedMemberEnd
  | keyNotString
  | trailingComma
  | trailingCharacters
  | invalidNumber
  | numberOutOfRange
  | invalidEscape
  | controlCharacter
  | loneSurrogate
  | unfinishedSurrogatePair
  | invalidUtf8
  | tooDeep
  | wrongType (found : Found) (expected : String)
  | wrongValue (found : Found) (expected : String)
  | duplicateField (name : String)
  deriving DecidableEq

inductive Category where
  | ending
  | form
  | data
  deriving DecidableEq

def Cause.category : Cause → Category
  | .endInValue | .endInArray | .endInObject | .endInString => .ending
  | .wrongType _ _ | .wrongValue _ _ | .duplicateField _ => .data
  | _ => .form

def Found.describe : Found → String
  | .null => "null"
  | .bool b => if b then "boolean `true`" else "boolean `false`"
  | .number (.float x) => "floating point `" ++ String.ofList (Number.float x).chars ++ "`"
  | .number n => "integer `" ++ String.ofList n.chars ++ "`"
  | .string s => "string " ++ quoteText s
  | .array => "sequence"
  | .object => "map"

def Cause.message : Cause → String
  | .endInValue => "EOF while parsing a value"
  | .endInArray => "EOF while parsing a list"
  | .endInObject => "EOF while parsing an object"
  | .endInString => "EOF while parsing a string"
  | .expectedValue => "expected value"
  | .expectedWord => "expected ident"
  | .expectedColon => "expected `:`"
  | .expectedItemEnd => "expected `,` or `]`"
  | .expectedMemberEnd => "expected `,` or `\x7d`"
  | .keyNotString => "key must be a string"
  | .trailingComma => "trailing comma"
  | .trailingCharacters => "trailing characters"
  | .invalidNumber => "invalid number"
  | .numberOutOfRange => "number out of range"
  | .invalidEscape => "invalid escape"
  | .controlCharacter => "control character (\\u0000-\\u001F) found while parsing a string"
  | .loneSurrogate => "lone leading surrogate in hex escape"
  | .unfinishedSurrogatePair => "unexpected end of hex escape"
  | .invalidUtf8 => "invalid unicode code point"
  | .tooDeep => "recursion limit exceeded"
  | .wrongType found expected => "invalid type: " ++ found.describe ++ ", expected " ++ expected
  | .wrongValue found expected => "invalid value: " ++ found.describe ++ ", expected " ++ expected
  | .duplicateField name => "duplicate field `" ++ name ++ "`"

structure Fault where
  cause : Cause
  /-- The number of bytes of the input that lie behind the place. -/
  unread : Nat
  /-- How many columns before the place the refusal is reported. -/
  back : Nat := 0
  deriving DecidableEq

structure ParseError where
  cause : Cause
  line : Nat
  column : Nat
  deriving DecidableEq

def ParseError.message (e : ParseError) : String :=
  e.cause.message ++ " at line " ++ e.line.repr ++ " column " ++ e.column.repr

def columnOf (bytes : Bytes) : Nat := (bytes.reverse.takeWhile (· != 0x0A)).length

/-- The line and column of a fault in its document. Lines count from one; a column is the number of
bytes between the start of its line and the place. -/
def Fault.locate (document : Bytes) (fault : Fault) : ParseError :=
  let before := document.take (document.length - fault.unread)
  ⟨fault.cause, before.count 0x0A + 1, columnOf before - fault.back⟩

end LatencyGate.Json
