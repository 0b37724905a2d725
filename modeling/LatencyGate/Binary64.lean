/-!
# Binary64 numbers

The floating-point numbers of IEEE 754 in 64 bits, as data. A finite number is a sign and a *rank*:
the 63 bits below the sign bit read as a number. Ranks count the magnitudes in ascending order,
`0` first, so neighbouring numbers have neighbouring ranks and comparing numbers is comparing
ranks. All NaNs are one value. An operation rounds its exact result once.
-/

namespace LatencyGate

def power (base : Nat) : Int → Rat
  | .ofNat n => ((Nat.pow base n : Nat) : Rat)
  | .negSucc n => mkRat 1 (Nat.pow base (n + 1))

inductive Tie where
  | even
  | up
  deriving DecidableEq

def Tie.round (tie : Tie) (x : Rat) : Int :=
  let below := x.floor
  let rest := x - below
  if 2 * rest < 1 then below
  else if 1 < 2 * rest then below + 1
  else match tie with
    | .even => if below % 2 = 0 then below else below + 1
    | .up => below + 1

def infiniteRank : Nat := 0x7FF0000000000000

inductive Binary64 where
  | nan
  | infinity (negative : Bool)
  | finite (negative : Bool) (rank : Fin infiniteRank)
  deriving DecidableEq

namespace Binary64

/-- The leading bit of a normal significand, `2^52`. It is also the number of ranks that share one
exponent. -/
def leadingBit : Nat := 0x10000000000000

def significand (rank : Nat) : Nat :=
  if rank < leadingBit then rank else leadingBit + rank % leadingBit

def exponent (rank : Nat) : Int :=
  if rank < leadingBit then -1074 else (rank / leadingBit : Nat) - 1075

def magnitude (rank : Nat) : Rat := significand rank * power 2 (exponent rank)

def zero : Binary64 := .finite false ⟨0, by decide⟩

def isFinite : Binary64 → Bool
  | .finite _ _ => true
  | _ => false

def signedMagnitude (negative : Bool) (rank : Nat) : Rat :=
  if negative then -magnitude rank else magnitude rank

def toRat? : Binary64 → Option Rat
  | .finite negative rank => some (signedMagnitude negative rank)
  | _ => none

/-- The place of a number on the line of ranks, negative numbers below zero. Both zeros stand at
`0`, and a NaN has no place. -/
def place? : Binary64 → Option Int
  | .nan => none
  | .infinity negative => some (if negative then -(infiniteRank : Int) else infiniteRank)
  | .finite negative rank => some (if negative then -(rank.val : Int) else rank.val)

def lt (x y : Binary64) : Bool :=
  match x.place?, y.place? with
  | some a, some b => decide (a < b)
  | _, _ => false

def equals (x y : Binary64) : Bool :=
  match x.place?, y.place? with
  | some a, some b => decide (a = b)
  | _, _ => false

def signBit : Nat := 0x8000000000000000

def ofBits (bits : UInt64) : Binary64 :=
  let negative := decide (signBit ≤ bits.toNat)
  let rank := bits.toNat % signBit
  if h : rank < infiniteRank then .finite negative ⟨rank, h⟩
  else if rank = infiniteRank then .infinity negative
  else .nan

def toBits : Binary64 → UInt64
  | .nan => 0x7FF8000000000000
  | .infinity negative => .ofNat (infiniteRank + if negative then signBit else 0)
  | .finite negative rank => .ofNat (rank.val + if negative then signBit else 0)

/-! ## Rounding -/

/-- The greatest integer `k` with `2^k ≤ x`, for a positive `x`. The lengths of numerator and
denominator give it up to one. -/
def log2Floor (x : Rat) : Int :=
  let guess : Int := (x.num.natAbs.log2 : Int) - x.den.log2
  if power 2 guess ≤ x then guess else guess - 1

/-- The exponent of the unit in the last place that a positive `x` is rounded to: 53 significant
bits, and never below the least magnitude. -/
def unitExponent (x : Rat) : Int :=
  let unit := log2Floor x - 52
  if unit < -1074 then -1074 else unit

/-- The rank of the magnitude nearest to a non-negative `x`. A significand that rounds up to the
next power of two carries into the exponent, which is the next rank. Ranks from `infiniteRank` on
stand for an overflow. -/
def roundRank (x : Rat) : Nat :=
  if x = 0 then 0 else
    let unit := unitExponent x
    (unit + 1074).toNat * leadingBit + (Tie.even.round (x * power 2 (-unit))).toNat

def round (negative : Bool) (x : Rat) : Binary64 :=
  if h : roundRank x < infiniteRank then .finite negative ⟨roundRank x, h⟩ else .infinity negative

def ofNat (n : Nat) : Binary64 := round false n

/-! ## Arithmetic -/

def neg : Binary64 → Binary64
  | .nan => .nan
  | .infinity negative => .infinity !negative
  | .finite negative rank => .finite (!negative) rank

def sub : Binary64 → Binary64 → Binary64
  | .nan, _ | _, .nan => .nan
  | .infinity a, .infinity b => if a = b then .nan else .infinity a
  | .infinity a, .finite _ _ => .infinity a
  | .finite _ _, .infinity b => .infinity !b
  | .finite a m, .finite b n =>
    let exact := signedMagnitude a m - signedMagnitude b n
    if exact = 0 then round (a && !b) 0 else round (decide (exact < 0)) exact.abs

def mul : Binary64 → Binary64 → Binary64
  | .nan, _ | _, .nan => .nan
  | .infinity a, .infinity b => .infinity (a != b)
  | .infinity a, .finite b n => if n.val = 0 then .nan else .infinity (a != b)
  | .finite a m, .infinity b => if m.val = 0 then .nan else .infinity (a != b)
  | .finite a m, .finite b n => round (a != b) (magnitude m * magnitude n)

def div : Binary64 → Binary64 → Binary64
  | .nan, _ | _, .nan => .nan
  | .infinity _, .infinity _ => .nan
  | .infinity a, .finite b _ => .infinity (a != b)
  | .finite a _, .infinity b => round (a != b) 0
  | .finite a m, .finite b n =>
    if n.val = 0 then (if m.val = 0 then .nan else .infinity (a != b))
    else round (a != b) (magnitude m / magnitude n)

end Binary64

end LatencyGate
