import LatencyGate.Json.Basic
import LatencyGate.Decimal

namespace LatencyGate

/-- JSON numbers are positional from `0.00001` to below `10^16`, and a positive exponent has a
sign. -/
def Layout.json : Layout := ⟨-5, 15, true, .even⟩

namespace Json

def controlDigits (c : Char) : List Char :=
  ['0', '0', Nat.digitChar (c.toNat / 16), Nat.digitChar (c.toNat % 16)]

def escaped (c : Char) : List Char :=
  if c = '"' then ['\\', '"']
  else if c = '\\' then ['\\', '\\']
  else if c = '\n' then ['\\', 'n']
  else if c = '\r' then ['\\', 'r']
  else if c = '\t' then ['\\', 't']
  else if c = '\x08' then ['\\', 'b']
  else if c = '\x0c' then ['\\', 'f']
  else if c.toNat < 0x20 then '\\' :: 'u' :: controlDigits c
  else [c]

def quoted (s : String) : List Char := '"' :: s.toList.flatMap escaped ++ ['"']

def Number.chars : Number → List Char
  | .natural n => digits n.toNat
  | .negSucc n => '-' :: digits (n.val + 1)
  | .float (.finite negative rank) => Layout.json.finite negative rank
  | .float _ => ['n', 'u', 'l', 'l']

mutual

def chars : Json → List Char
  | .null => ['n', 'u', 'l', 'l']
  | .bool b => if b then ['t', 'r', 'u', 'e'] else ['f', 'a', 'l', 's', 'e']
  | .number n => n.chars
  | .string s => quoted s
  | .array [] => ['[', ']']
  | .array (v :: rest) => '[' :: chars v ++ itemChars rest
  | .object [] => ['\x7b', '\x7d']
  | .object ((k, v) :: rest) => '\x7b' :: quoted k ++ ':' :: chars v ++ memberChars rest

def itemChars : List Json → List Char
  | [] => [']']
  | v :: rest => ',' :: chars v ++ itemChars rest

def memberChars : List (String × Json) → List Char
  | [] => ['\x7d']
  | (k, v) :: rest => ',' :: quoted k ++ ':' :: chars v ++ memberChars rest

end

def render (v : Json) : String := String.ofList v.chars

end Json

end LatencyGate
