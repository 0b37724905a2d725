import LatencyGate.Json.Reader.List
import LatencyGate.Json.Reader.Number
import LatencyGate.Json.Reader.Quoted

namespace LatencyGate.Json.Reader

def arrayFrom (item : Reader Json) : Reader Json := do
  let items ← fold itemSeparator (fun items => return (← item) :: items) []
  let _ ← next?
  pure (.array items.reverse)

def member (value : Reader Json) (members : List (String × Json)) :
    Reader (List (String × Json)) := do
  let key ← string
  colon
  return setMember key (← value) members

def objectFrom (value : Reader Json) : Reader Json := do
  let members ← fold memberSeparator (member value) []
  let _ ← next?
  pure (.object members)

/-- The rest of a value behind its first byte. `nested` reads the values inside a bracket; without
it no bracket may be opened. -/
def valueFrom (nested : Option (Reader Json)) (b : UInt8) : Reader Json := do
  if b = byte 'n' then
    word ['u', 'l', 'l']
    pure .null
  else if b = byte 't' then
    word ['r', 'u', 'e']
    pure (.bool true)
  else if b = byte 'f' then
    word ['a', 'l', 's', 'e']
    pure (.bool false)
  else if b = byte '"' then return .string (← string)
  else if b = byte '[' then
    match nested with
    | none => fail .tooDeep
    | some item => arrayFrom item
  else if b = byte '\x7b' then
    match nested with
    | none => fail .tooDeep
    | some value => objectFrom value
  else if b = byte '-' then return .number (← negativeNumber)
  else
    match digit? b with
    | some first => return .number (← numberFrom false first)
    | none => fail .expectedValue

/-- A value in which at most this many brackets are open at a time. -/
def value : Nat → Reader Json
  | 0 => token .endInValue (valueFrom none)
  | levels + 1 => token .endInValue (valueFrom (some (value levels)))

/-- Refuses a value by its type, behind its first byte. Scalars are read to the end first, so that
the message can show them. -/
def wrongType {α : Type} (expected : String) (b : UInt8) : Reader α := do
  if b = byte '[' then failBeforeLast (.wrongType .array expected)
  else if b = byte '\x7b' then failBeforeLast (.wrongType .object expected)
  else
    match ← valueFrom none b with
    | .bool b => fail (.wrongType (.bool b) expected)
    | .number n => fail (.wrongType (.number n) expected)
    | .string s => fail (.wrongType (.string s) expected)
    | _ => fail (.wrongType .null expected)

def text : Reader String :=
  token .endInValue fun b => if b = byte '"' then string else wrongType "a string" b

def natural (n : Number) : Reader UInt64 :=
  match n with
  | .natural n => pure n
  | .negSucc _ => fail (.wrongValue (.number n) "u64")
  | .float _ => fail (.wrongType (.number n) "u64")

def unsigned : Reader UInt64 :=
  token .endInValue fun b => do
    if b = byte '-' then natural (← negativeNumber)
    else
      match digit? b with
      | some first => natural (← numberFrom false first)
      | none => wrongType "u64" b

def optional {α : Type} (inner : Reader α) : Reader (Option α) := do
  blanks
  if (← peek?) = some (byte 'n') then
    let _ ← next?
    word ['u', 'l', 'l']
    pure none
  else return some (← inner)

end LatencyGate.Json.Reader
