import LatencyGate.Json.Reader
import LatencyGate.Binary64

/-!
# Reading numbers

A number without fraction and exponent that fits into 64 bits is an integer. Any other is a
floating-point number, which is computed from a significand of 64 bits and a power of ten with
binary64 arithmetic; digits that do not fit into the significand are left out, so the result need
not be the nearest number.
-/

namespace LatencyGate.Json.Reader

def digit? (b : UInt8) : Option Nat := if 0x30 ≤ b ∧ b ≤ 0x39 then some (b.toNat - 0x30) else none

structure Gathered where
  significand : Nat
  used : Nat
  dropped : Nat

/-- Takes all digits at the front and appends them to a significand, as long as it stays below
`2^64`. From the first digit that does not fit on, all are left out. -/
def gatherFrom (g : Gathered) : Bytes → Gathered × Bytes
  | [] => (g, [])
  | b :: r =>
    match digit? b with
    | none => (g, b :: r)
    | some d =>
      if g.dropped = 0 ∧ g.significand * 10 + d < 0x10000000000000000 then
        gatherFrom { g with significand := g.significand * 10 + d, used := g.used + 1 } r
      else gatherFrom { g with dropped := g.dropped + 1 } r

theorem gatherFrom_length_le (g : Gathered) (s : Bytes) :
    (gatherFrom g s).2.length ≤ s.length := by
  fun_induction gatherFrom g s with
  | case1 => simp
  | case2 => simp
  | case3 g b r d _ _ ih => simp only [List.length_cons]; omega
  | case4 g b r d _ _ ih => simp only [List.length_cons]; omega

def gather (significand : Nat) : Reader Gathered where
  run s := .ok (gatherFrom ⟨significand, 0, 0⟩ s)
  rest_le {s _ _} h := by
    have := gatherFrom_length_le ⟨significand, 0, 0⟩ s
    injection h with h
    rw [h] at this
    exact this

/-- The digits of an exponent behind the first one, or nothing as soon as they exceed 31 bits: the
digit with which they do is the last that is taken. -/
def exponentFrom (n : Nat) : Bytes → Option Nat × Bytes
  | [] => (some n, [])
  | b :: r =>
    match digit? b with
    | none => (some n, b :: r)
    | some d => if n * 10 + d ≤ 0x7FFFFFFF then exponentFrom (n * 10 + d) r else (none, r)

theorem exponentFrom_length_le (n : Nat) (s : Bytes) : (exponentFrom n s).2.length ≤ s.length := by
  fun_induction exponentFrom n s with
  | case1 => simp
  | case2 => simp
  | case3 n b r d _ _ ih => simp only [List.length_cons]; omega
  | case4 => simp

def exponentDigits (first : Nat) : Reader (Option Nat) where
  run s := .ok (exponentFrom first s)
  rest_le {s _ _} h := by
    have := exponentFrom_length_le first s
    injection h with h
    rw [h] at this
    exact this

def powerOfTen (n : Nat) : Binary64 := .round false (power 10 n)

/-- A magnitude times a power of ten, or nothing if that overflows. An exponent below -308 is
worked off in steps of that size. -/
def scale? (x : Binary64) (exponent : Int) : Option Binary64 :=
  if exponent.natAbs ≤ 308 then
    if 0 ≤ exponent then
      let scaled := x.mul (powerOfTen exponent.natAbs)
      if scaled.isFinite then some scaled else none
    else some (x.div (powerOfTen exponent.natAbs))
  else if x.equals .zero then some x
  else if 0 < exponent then none
  else scale? (x.div (powerOfTen 308)) (exponent + 308)
termination_by exponent.natAbs

def float (negative : Bool) (significand : Nat) (exponent : Int) : Reader Number := do
  match scale? (.ofNat significand) exponent with
  | none => fail .numberOutOfRange
  | some x => pure (.float (if negative then x.neg else x))

/-- The integer of a sign and a magnitude below `2^64`. Negative zero and numbers below the signed
range are floating-point numbers. -/
def integer (negative : Bool) (magnitude : Nat) : Number :=
  if negative then
    if h : 0 < magnitude ∧ magnitude ≤ 0x8000000000000000 then
      .negSucc ⟨magnitude - 1, by omega⟩
    else .float (Binary64.ofNat magnitude).neg
  else .natural (.ofNat magnitude)

def isExponentMark (b : UInt8) : Bool := b = byte 'e' ∨ b = byte 'E'

def exponentSign : Reader Bool := do
  match ← peek? with
  | some b =>
    if b = byte '-' then do
      let _ ← next?
      pure true
    else if b = byte '+' then do
      let _ ← next?
      pure false
    else pure false
  | none => pure false

/-- The rest of a number behind the mark of its exponent. An exponent beyond 31 bits overflows if
it is positive and the significand is not zero, and gives zero otherwise. -/
def exponentPart (negative : Bool) (significand : Nat) (start : Int) : Reader Number := do
  let down ← exponentSign
  match ← next? with
  | none => fail .endInValue
  | some b =>
    match digit? b with
    | none => fail .invalidNumber
    | some first =>
      match ← exponentDigits first with
      | some n => float negative significand (if down then start - n else start + n)
      | none =>
        if significand ≠ 0 ∧ !down then fail .numberOutOfRange
        else
          let _ ← gather 0
          pure (.float (.round negative 0))

def fractionPart (negative : Bool) (significand : Nat) (start : Int) : Reader Number := do
  match ← peek? with
  | none => fail .endInValue
  | some b =>
    if (digit? b).isNone then failAfterNext .invalidNumber
    else
      let g ← gather significand
      let exponent := start - g.used
      match ← peek? with
      | none => float negative g.significand exponent
      | some b =>
        if isExponentMark b then
          let _ ← next?
          exponentPart negative g.significand exponent
        else float negative g.significand exponent

def leadingDigit (first : Nat) : Reader Unit := do
  match ← peek? with
  | none => pure ()
  | some b =>
    if first = 0 ∧ (digit? b).isSome then failAfterNext .invalidNumber else pure ()

def numberFrom (negative : Bool) (first : Nat) : Reader Number := do
  leadingDigit first
  let g ← gather first
  let whole : Reader Number :=
    if g.dropped = 0 then pure (integer negative g.significand)
    else float negative g.significand g.dropped
  match ← peek? with
  | none => whole
  | some b =>
    if b = byte '.' then
      let _ ← next?
      fractionPart negative g.significand g.dropped
    else if isExponentMark b then
      let _ ← next?
      exponentPart negative g.significand g.dropped
    else whole

def negativeNumber : Reader Number := do
  match ← next? with
  | none => fail .endInValue
  | some b =>
    match digit? b with
    | none => fail .invalidNumber
    | some first => numberFrom true first

end LatencyGate.Json.Reader
