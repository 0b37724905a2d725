import LatencyGate.Binary64

namespace LatencyGate

inductive Json.Number where
  | natural (n : UInt64)
  | negSucc (n : Fin 0x8000000000000000)
  /-- A number with a fraction or an exponent, or an integer beyond the other two. -/
  | float (x : Binary64)
  deriving DecidableEq

inductive Json where
  | null
  | bool (b : Bool)
  | number (n : Json.Number)
  | string (s : String)
  | array (items : List Json)
  | object (members : List (String × Json))

namespace Json

/-- The members with the value of `key` set to `value`, in ascending order of the keys if they were
so before. -/
def setMember (key : String) (value : Json) : List (String × Json) → List (String × Json)
  | [] => [(key, value)]
  | (k, v) :: rest =>
    if key = k then (key, value) :: rest
    else if key < k then (key, value) :: (k, v) :: rest
    else (k, v) :: setMember key value rest

def ofMembers (members : List (String × Json)) : Json :=
  .object (members.foldl (fun object (key, value) => setMember key value object) [])

def ofInt64 (i : Int64) : Json :=
  match i.toInt with
  | .ofNat n => .number (.natural (.ofNat n))
  | .negSucc n =>
    if h : n < 0x8000000000000000 then .number (.negSucc ⟨n, h⟩) else .null

/-- A floating-point number as a value; what is not finite has no number and becomes `null`. -/
def ofBinary64 (x : Binary64) : Json := if x.isFinite then .number (.float x) else .null

def member? (key : String) : Json → Option Json
  | .object members => members.lookup key
  | _ => none

def natural? : Json → Option UInt64
  | .number (.natural n) => some n
  | _ => none

def Number.same : Number → Number → Bool
  | .natural a, .natural b => a == b
  | .negSucc a, .negSucc b => a == b
  | .float a, .float b => a.equals b
  | _, _ => false

mutual

def same : Json → Json → Bool
  | .null, .null => true
  | .bool a, .bool b => a == b
  | .number a, .number b => a.same b
  | .string a, .string b => a == b
  | .array a, .array b => sameItems a b
  | .object a, .object b => sameMembers a b
  | _, _ => false

def sameItems : List Json → List Json → Bool
  | [], [] => true
  | a :: as, b :: bs => same a b && sameItems as bs
  | _, _ => false

def sameMembers : List (String × Json) → List (String × Json) → Bool
  | [], [] => true
  | (k, a) :: as, (l, b) :: bs => k == l && same a b && sameMembers as bs
  | _, _ => false

end

end Json

end LatencyGate
