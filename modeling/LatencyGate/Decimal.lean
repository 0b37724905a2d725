import LatencyGate.Binary64

namespace LatencyGate

structure Decimal where
  coefficient : Nat
  exponent : Int
  deriving DecidableEq

def digits (n : Nat) : List Char := Nat.toDigits 10 n

theorem toNat_of_isDigit {c : Char} (digit : c.isDigit = true) : 48 ≤ c.toNat ∧ c.toNat ≤ 57 := by
  simp only [Char.isDigit, Bool.and_eq_true, decide_eq_true_eq, ge_iff_le, UInt32.le_iff_toNat_le]
    at digit
  exact digit

theorem isDigit_of_mem_digits {n : Nat} {c : Char} (member : c ∈ digits n) : c.isDigit = true :=
  Nat.isDigit_of_mem_toDigits (by decide) (by decide) member

theorem ofDigitChars_digits (n : Nat) : Nat.ofDigitChars 10 (digits n) 0 = n :=
  Nat.ofDigitChars_ten_toDigits

theorem digits_ne_nil (n : Nat) : digits n ≠ [] := Nat.toDigits_ne_nil

namespace Decimal

def value (d : Decimal) : Rat := d.coefficient * power 10 d.exponent

/-- Where the decimal point stands, counted in places to the right of the first digit's left edge:
a decimal with a positive coefficient lies below `10^point` and not below `10^(point - 1)`. -/
def point (d : Decimal) : Int := (digits d.coefficient).length + d.exponent

/-- The binary64 number nearest to a decimal, with the given sign. A decimal of more than 310
places before the point overflows and one that starts more than 330 places after it vanishes, so
for those the power of ten is not computed. -/
def toBinary64 (negative : Bool) (d : Decimal) : Binary64 :=
  if d.coefficient = 0 then .round negative 0
  else if 310 < d.point then .infinity negative
  else if d.point < -330 then .round negative 0
  else .round negative d.value

/-! ## The shortest decimal that reads back -/

def readsBack (rank : Nat) (d : Decimal) : Bool := Binary64.roundRank d.value == rank

def pointOf (x : Rat) : Int :=
  if 1 ≤ x then (digits x.floor.toNat).length else 1 - ((digits (1 / x).floor.toNat).length : Int)

def neighbours (tie : Tie) (x : Rat) (exponent : Int) : List Decimal :=
  let scaled := x * power 10 (-exponent)
  let below := scaled.floor.toNat
  let nearest := (tie.round scaled).toNat
  [⟨nearest, exponent⟩, ⟨if nearest = below then below + 1 else below, exponent⟩]

def exact (rank : Nat) : Decimal :=
  match Binary64.exponent rank with
  | .ofNat n => ⟨Binary64.significand rank * Nat.pow 2 n, 0⟩
  | .negSucc n => ⟨Binary64.significand rank * Nat.pow 5 (n + 1), .negSucc n⟩

/-- The shortest decimal that rounds to the magnitude with this positive rank. Seventeen digits are
enough for every magnitude, and the exact decimal stands behind them. -/
def shortest (tie : Tie) (rank : Nat) : Decimal :=
  let x := Binary64.magnitude rank
  let point := pointOf x
  let found := (List.range 17).findSome? fun n =>
    (neighbours tie x (point - (n + 1 : Nat))).find? (readsBack rank)
  found.getD (exact rank)

end Decimal

/-! ## Texts of numbers -/

/-- How a decimal is spelled: positionally if the exponent of its first digit is from `least` to
`greatest`, and else with that exponent. Of two shortest decimals that are equally near, `tie` takes
one. -/
structure Layout where
  least : Int
  greatest : Int
  plus : Bool
  tie : Tie

namespace Layout

def dropTrailingZeros (ds : List Char) : List Char :=
  (ds.reverse.dropWhile (· == '0')).reverse

def positional (ds : List Char) (point : Int) : List Char :=
  if point ≤ 0 then '0' :: '.' :: List.replicate (-point).toNat '0' ++ ds
  else if ds.length ≤ point then ds ++ List.replicate (point - ds.length).toNat '0' ++ ['.', '0']
  else ds.take point.toNat ++ '.' :: ds.drop point.toNat

def exponentText (layout : Layout) (exponent : Int) : List Char :=
  let sign := if exponent < 0 then ['-'] else if layout.plus then ['+'] else []
  'e' :: sign ++ digits exponent.natAbs

def scientific (layout : Layout) (ds : List Char) (exponent : Int) : List Char :=
  ds.take 1 ++ (if ds.length ≤ 1 then [] else '.' :: ds.drop 1) ++ layout.exponentText exponent

def magnitude (layout : Layout) (rank : Nat) : List Char :=
  if rank = 0 then ['0', '.', '0']
  else
    let d := Decimal.shortest layout.tie rank
    let ds := dropTrailingZeros (digits d.coefficient)
    let exponent := d.point - 1
    if layout.least ≤ exponent ∧ exponent ≤ layout.greatest then positional ds d.point
    else layout.scientific ds exponent

def finite (layout : Layout) (negative : Bool) (rank : Nat) : List Char :=
  (if negative then ['-'] else []) ++ layout.magnitude rank

end Layout

/-- Percentages are positional from `0.0001` to below `10^16`, and a positive exponent has no
sign. -/
def Layout.percent : Layout := ⟨-4, 15, false, .up⟩

def Binary64.percentText : Binary64 → String
  | .nan => "NaN"
  | .infinity negative => if negative then "-inf" else "inf"
  | .finite negative rank => String.ofList (Layout.percent.finite negative rank)

def fixedDigits (places : Nat) (x : Rat) : List Char :=
  let scaled := digits (Tie.even.round (x * power 10 places)).toNat
  let padded := List.replicate (places + 1 - scaled.length) '0' ++ scaled
  let whole := padded.length - places
  padded.take whole ++ '.' :: padded.drop whole

/-- A number with `places` digits after the point. A negative number, negative zero included, has
its sign; `plus` asks for one on the others too. A NaN has none. -/
def Binary64.fixedText (places : Nat) (plus : Bool) (x : Binary64) : String :=
  let signed (negative : Bool) (text : List Char) : String :=
    String.ofList ((if negative then ['-'] else if plus then ['+'] else []) ++ text)
  match x with
  | .nan => "NaN"
  | .infinity negative => signed negative ['i', 'n', 'f']
  | .finite negative rank => signed negative (fixedDigits places (magnitude rank))

/-! ## Numerals -/

namespace Decimal

def exponentOf? : List Char → Option Int
  | [] => some 0
  | e :: rest =>
    if e = 'e' ∨ e = 'E' then
      let (negative, ds) := match rest with
        | '-' :: ds => (true, ds)
        | '+' :: ds => (false, ds)
        | ds => (false, ds)
      if ds ≠ [] ∧ ds.all Char.isDigit then
        let n := Nat.ofDigitChars 10 ds 0
        some (if negative then -(n : Int) else n)
      else none
    else none

/-- The decimal that an unsigned numeral denotes: digits with at most one point, at least one digit
on one side of it, and an optional exponent. -/
def ofNumeral? (text : List Char) : Option Decimal :=
  let whole := text.takeWhile Char.isDigit
  let (fraction, rest) := match text.dropWhile Char.isDigit with
    | '.' :: t => (t.takeWhile Char.isDigit, t.dropWhile Char.isDigit)
    | t => ([], t)
  if whole = [] ∧ fraction = [] then none
  else (exponentOf? rest).map fun e => ⟨Nat.ofDigitChars 10 (whole ++ fraction) 0, e - fraction.length⟩

end Decimal

namespace Binary64

def ofUnsignedNumeral? (negative : Bool) (text : List Char) : Option Binary64 :=
  let word := String.ofList (text.map Char.toLower)
  if word = "nan" then some .nan
  else if word = "inf" ∨ word = "infinity" then some (.infinity negative)
  else (Decimal.ofNumeral? text).map (Decimal.toBinary64 negative)

def ofNumeral? (text : String) : Option Binary64 :=
  match text.toList with
  | '-' :: rest => ofUnsignedNumeral? true rest
  | '+' :: rest => ofUnsignedNumeral? false rest
  | rest => ofUnsignedNumeral? false rest

end Binary64

end LatencyGate
