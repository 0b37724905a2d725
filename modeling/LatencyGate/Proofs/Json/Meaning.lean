import Mathlib
import LatencyGate.Json.Reader.Number
import LatencyGate.Json.Reader.Quoted
import LatencyGate.Proofs.Json.Grammar

/-!
# What a text means

The value that a spelling stands for, told from its parts and without a reader. A spelling has no
value if a string is not UTF-8 or holds half of a surrogate pair, if a number overflows, or if more
brackets are open at a time than there are levels.
-/

namespace LatencyGate.Json

open Reader

/-! ## Strings -/

def unitValue (a b c d : HexDigit) : Nat :=
  ((a.value.val * 16 + b.value.val) * 16 + c.value.val) * 16 + d.value.val

/-- What a part of a string stands for: a byte, or half of a surrogate pair that stands alone. -/
abbrev Content := List (UInt8 ⊕ Nat)

def unitContent (n : Nat) : Content :=
  if isLeading n || isTrailing n then [.inr n]
  else (String.utf8EncodeChar (.ofNat n)).map .inl

/-- What a string stands for. Two spellings with the same content differ in their escapes only. -/
def Literal.content : Literal → Content
  | [] => []
  | .plain b _ :: rest => .inl b :: content rest
  | .short _ b _ :: rest => .inl b :: content rest
  | .unit a b c d :: .unit a' b' c' d' :: rest =>
    if isLeading (unitValue a b c d) && isTrailing (unitValue a' b' c' d') then
      (String.utf8EncodeChar (pairChar (unitValue a b c d) (unitValue a' b' c' d'))).map .inl ++
        content rest
    else unitContent (unitValue a b c d) ++ content (.unit a' b' c' d' :: rest)
  | .unit a b c d :: rest => unitContent (unitValue a b c d) ++ content rest

def Content.bytes? : Content → Option Bytes
  | [] => some []
  | .inl b :: rest => (bytes? rest).map (b :: ·)
  | .inr _ :: _ => none

def Content.text? (content : Content) : Option String :=
  (bytes? content).bind fun bytes =>
    if (Utf8.decode bytes).2 = [] then some (.ofList (Utf8.decode bytes).1) else none

def Literal.text? (l : Literal) : Option String := Content.text? (content l)

/-- The spelling of a text without escapes. What needs an escape is left out. -/
def Literal.plain (s : String) : Literal :=
  (Utf8.ofString s).filterMap fun b =>
    if h : 0x20 ≤ b ∧ b ≠ byte '"' ∧ b ≠ byte '\\' then some (.plain b h) else none

/-! ## Numbers -/

def push (g : Gathered) (d : Fin 10) : Gathered :=
  if g.dropped = 0 ∧ g.significand * 10 + d.val < 0x10000000000000000 then
    { g with significand := g.significand * 10 + d.val, used := g.used + 1 }
  else { g with dropped := g.dropped + 1 }

def gathered (significand : Nat) (ds : Digits) : Gathered := ds.foldl push ⟨significand, 0, 0⟩

def float? (negative : Bool) (significand : Nat) (exponent : Int) : Option Number :=
  (scale? (.ofNat significand) exponent).map fun x => .float (if negative then x.neg else x)

namespace Exponent

def value? : Nat → Digits → Option Nat
  | n, [] => some n
  | n, d :: ds => if n * 10 + d.val ≤ 0x7FFFFFFF then value? (n * 10 + d.val) ds else none

def down (x : Exponent) : Bool := x.sign == some true

def number? (x : Exponent) (negative : Bool) (significand : Nat) (start : Int) : Option Number :=
  match value? x.first.val x.more with
  | some n => float? negative significand (if x.down then start - n else start + n)
  | none =>
    if significand ≠ 0 ∧ !x.down then none else some (.float (.round negative 0))

end Exponent

def Numeral.number? (n : Numeral) : Option Number :=
  let whole := gathered n.first.val n.more
  match n.fraction, n.exponent with
  | none, none =>
    if whole.dropped = 0 then some (integer n.negative whole.significand)
    else float? n.negative whole.significand whole.dropped
  | none, some x => x.number? n.negative whole.significand whole.dropped
  | some (d, ds), none =>
    let all := gathered whole.significand (d :: ds)
    float? n.negative all.significand (whole.dropped - all.used)
  | some (d, ds), some x =>
    let all := gathered whole.significand (d :: ds)
    x.number? n.negative all.significand (whole.dropped - all.used)

/-! ## Values -/

namespace Spelling

def keyed? (members : List Member) : Option (List (String × Spelling)) :=
  members.mapM fun m => (Literal.text? m.key).map (·, m.value)

theorem mapM?_cons {α β : Type} (f : α → Option β) (x : α) (xs : List α) :
    (x :: xs).mapM f = (f x).bind fun y => (xs.mapM f).map (y :: ·) := by
  rw [List.mapM_cons]
  cases f x with
  | none => rfl
  | some y => cases xs.mapM f <;> rfl

theorem keyed?_cons (m : Member) (members : List Member) :
    keyed? (m :: members) =
      (Literal.text? m.key).bind fun k => (keyed? members).map ((k, m.value) :: ·) := by
  rw [keyed?, mapM?_cons]
  cases Literal.text? m.key <;> rfl

section
variable {members : List Member} {keyed : List (String × Spelling)}

theorem map_of_keyed? (read : keyed? members = some keyed) :
    members.map (fun m => (Literal.text? m.key, m.value)) = keyed.map fun a => (some a.1, a.2) := by
  induction members generalizing keyed with
  | nil =>
      cases read
      rfl
  | cons m members ih =>
      rw [keyed?_cons, Option.bind_eq_some_iff] at read
      obtain ⟨k, text, read⟩ := read
      obtain ⟨keyed, others, rfl⟩ := Option.map_eq_some_iff.1 read
      rw [List.map_cons, List.map_cons, text, ih others]

theorem map_text?_of_keyed? (read : keyed? members = some keyed) :
    members.map (fun m => Literal.text? m.key) = keyed.map fun a => some a.1 := by
  have both := congrArg (List.map Prod.fst) (map_of_keyed? read)
  rwa [List.map_map, List.map_map] at both

theorem map_value_of_keyed? (read : keyed? members = some keyed) :
    members.map (·.value) = keyed.map Prod.snd := by
  have both := congrArg (List.map Prod.snd) (map_of_keyed? read)
  rwa [List.map_map, List.map_map] at both

end

def value? : Nat → Spelling → Option Json
  | _, .null => some .null
  | _, .bool b => some (.bool b)
  | _, .number n => n.number?.map .number
  | _, .string l => (Literal.text? l).map .string
  | levels + 1, .array _ items =>
    (items.mapM fun item => value? levels item.value).map .array
  | levels + 1, .object _ members =>
    ((keyed? members).bind fun keyed =>
      keyed.mapM fun (k, v) => (value? levels v).map (k, ·)).map ofMembers
  | 0, .array _ _ => none
  | 0, .object _ _ => none

def IsScalar : Spelling → Prop
  | .array _ _ => False
  | .object _ _ => False
  | _ => True

def text? : Spelling → Option String
  | .string l => Literal.text? l
  | _ => none

def natural? : Spelling → Option UInt64
  | .number n => n.number?.bind fun
    | .natural n => some n
    | _ => none
  | _ => none

def optional? {α : Type} (meaning : Spelling → Option α) : Option Spelling → Option (Option α)
  | none => some none
  | some .null => some none
  | some v => (meaning v).map some

theorem optional?_some {α : Type} (meaning : Spelling → Option α) {v : Spelling}
    (present : v ≠ .null) : optional? meaning (some v) = (meaning v).map some := by
  cases v with
  | null => exact absurd rfl present
  | _ => rfl

def known (names : List String) (keyed : List (String × Spelling)) : List (String × Spelling) :=
  keyed.filter fun member => names.contains member.1

section
variable {names : List String} {k : String}

theorem known_append (first last : List (String × Spelling)) :
    known names (first ++ last) = known names first ++ known names last :=
  List.filter_append ..

theorem known_cons_of_mem (member : k ∈ names) (v : Spelling) (keyed : List (String × Spelling)) :
    known names ((k, v) :: keyed) = (k, v) :: known names keyed :=
  List.filter_cons_of_pos (List.contains_iff_mem.2 member)

theorem known_cons_of_not_mem (other : k ∉ names) (v : Spelling)
    (keyed : List (String × Spelling)) : known names ((k, v) :: keyed) = known names keyed :=
  List.filter_cons_of_neg fun member => other (List.contains_iff_mem.1 member)

end

/-- The values that a spelling gives to the fields of a record. An object must not give a field
twice, and an array gives the fields in their order. -/
def fields? (names : List String) : Spelling → Option (String → Option Spelling)
  | .object _ members => (keyed? members).bind fun keyed =>
    if ((known names keyed).map Prod.fst).Nodup then some fun name => keyed.lookup name else none
  | .array _ items =>
    if items.length ≤ names.length then
      some fun name => (names.zip (items.map (·.value))).lookup name
    else none
  | _ => none

end Spelling

/-! ## Texts without blanks -/

def digit (n : Nat) : Fin 10 := ⟨n % 10, Nat.mod_lt n (by decide)⟩

def HexDigit.ofNat (n : Nat) (upper : Bool) : HexDigit := ⟨⟨n % 16, Nat.mod_lt n (by decide)⟩, upper⟩

def Numeral.single (n : Nat) : Numeral := ⟨false, digit n, [], fun _ => rfl, none, none⟩

def Numeral.scaled (n first : Nat) (more : List Nat) : Numeral :=
  { single n with exponent := some ⟨false, none, digit first, more.map digit⟩ }

def Spelling.plainItem (v : Spelling) : Item := ⟨[], v, []⟩

def Spelling.plainMember (key : String) (v : Spelling) : Member := ⟨[], .plain key, [], [], v, []⟩

def Document.plain (v : Spelling) : Document := ⟨[], v, []⟩

end LatencyGate.Json
