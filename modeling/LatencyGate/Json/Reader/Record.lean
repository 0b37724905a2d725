import LatencyGate.Json.Reader.Skip
import LatencyGate.Json.Reader.Value

namespace LatencyGate.Json.Reader

variable {ρ : Type}

structure RecordField (ρ : Type) where
  name : String
  read : ρ → Reader ρ

/-- Refuses the second member for a field behind its key. If nothing but the end of the object
follows, the refusal is reported behind it. -/
def duplicate {α : Type} (name : String) : Reader α := do
  blanks
  if (← peek?) = some (byte '\x7d') then
    let _ ← next?
    fail (.duplicateField name)
  else fail (.duplicateField name)

/-- A member of a record, behind the opening quote of its key. The state is the record and the names
of the fields that were given so far. -/
def recordMember (fields : List (RecordField ρ)) (state : ρ × List String) :
    Reader (ρ × List String) := do
  let (record, given) := state
  let key ← string
  match fields.find? (·.name == key) with
  | none =>
    colon
    skipValue
    pure (record, given)
  | some field =>
    if given.contains key then duplicate key
    else
      colon
      return (← field.read record, key :: given)

def recordObject (fields : List (RecordField ρ)) (empty : ρ) : Reader ρ := do
  let (record, _) ← fold memberSeparator (recordMember fields) (empty, [])
  let _ ← next?
  pure record

def recordItems : List (RecordField ρ) → Bool → ρ → Reader ρ
  | [], _, record => pure record
  | field :: rest, first, record => do
    if ← nextItem first then recordItems rest false (← field.read record) else pure record

def arrayEnd : Reader Unit :=
  token .endInArray fun b => do
    if b = byte ']' then pure ()
    else if b = byte ',' then
      blanks
      if (← peek?) = some (byte ']') then failAfterNext .trailingComma
      else failAfterNext .trailingCharacters
    else fail .trailingCharacters

def recordArray (fields : List (RecordField ρ)) (empty : ρ) : Reader ρ := do
  let record ← recordItems fields true empty
  arrayEnd
  pure record

def record (expected : String) (fields : List (RecordField ρ)) (empty : ρ) : Reader ρ :=
  token .endInValue fun b =>
    if b = byte '\x7b' then recordObject fields empty
    else if b = byte '[' then recordArray fields empty
    else wrongType expected b

end LatencyGate.Json.Reader
