import LatencyGate.Json.Reader.List
import LatencyGate.Json.Reader.Number
import LatencyGate.Json.Reader.Quoted

/-!
# Skipping values

`Reader.skipValue` takes a value of any type, depth and magnitude without keeping anything of it.
It remembers the brackets that are open in a list and so needs no nesting of its own. Escapes must
be well formed; which characters they stand for does not matter.
-/

namespace LatencyGate.Json.Reader

def skipEscape : Reader Unit := do
  match ← next? with
  | none => fail .endInString
  | some b =>
    if (shortEscape? b).isSome then pure ()
    else if b = byte 'u' then
      let _ ← hexFour
      pure ()
    else fail .invalidEscape

def skipStringFrom : Bytes → Except Fault (Unit × Bytes)
  | [] => .error ⟨.endInString, 0, 0⟩
  | b :: r =>
    if b = byte '"' then .ok ((), r)
    else if b = byte '\\' then
      match _h : skipEscape.run r with
      | .error e => .error e
      | .ok ((), r') => skipStringFrom r'
    else if b < 0x20 then .error ⟨.controlCharacter, r.length + 1, 0⟩
    else skipStringFrom r
termination_by s => s.length
decreasing_by
  · have := skipEscape.rest_le _h
    simp only [List.length_cons]; omega
  · simp

theorem skipStringFrom_length_le (s : Bytes) : ∀ {u r},
    skipStringFrom s = .ok (u, r) → r.length ≤ s.length := by
  fun_induction skipStringFrom s with
  | case1 => nofun
  | case2 => intro u r h; cases h; simp
  | case3 => nofun
  | case4 r r' h _ ih =>
    intro _ t ht
    have := ih ht
    have := skipEscape.rest_le h
    simp only [List.length_cons]; omega
  | case5 => nofun
  | case6 b r _ _ _ ih =>
    intro _ t ht
    have := ih ht
    simp only [List.length_cons]; omega

def skipString : Reader Unit where
  run := skipStringFrom
  rest_le := skipStringFrom_length_le _

def skipDigits : Reader Bool := do
  let g ← gather 0
  pure (g.used + g.dropped != 0)

def skipExponent : Reader Unit := do
  let _ ← exponentSign
  match ← next? with
  | none => fail .invalidNumber
  | some b =>
    if (digit? b).isSome then
      let _ ← skipDigits
      pure ()
    else fail .invalidNumber

def skipExponentPart : Reader Unit := do
  match ← peek? with
  | none => pure ()
  | some b =>
    if isExponentMark b then
      let _ ← next?
      skipExponent
    else pure ()

def skipNumberFrom (first : Nat) : Reader Unit := do
  leadingDigit first
  let _ ← skipDigits
  if (← peek?) = some (byte '.') then
    let _ ← next?
    if ← skipDigits then skipExponentPart else failAfterNext .invalidNumber
  else skipExponentPart

def skipNegativeNumber : Reader Unit := do
  match ← next? with
  | none => fail .invalidNumber
  | some b =>
    match digit? b with
    | none => fail .invalidNumber
    | some first => skipNumberFrom first

inductive Bracket where
  | array
  | object

def Bracket.closing : Bracket → UInt8
  | .array => byte ']'
  | .object => byte '\x7d'

def Bracket.ending : Bracket → Cause
  | .array => .endInArray
  | .object => .endInObject

def Bracket.expectedEnd : Bracket → Cause
  | .array => .expectedItemEnd
  | .object => .expectedMemberEnd

def Bracket.opened? (b : UInt8) : Option Bracket :=
  if b = byte '[' then some .array else if b = byte '\x7b' then some .object else none

def skipScalar (b : UInt8) : Reader Unit :=
  if b = byte 'n' then word ['u', 'l', 'l']
  else if b = byte 't' then word ['r', 'u', 'e']
  else if b = byte 'f' then word ['a', 'l', 's', 'e']
  else if b = byte '"' then skipString
  else if b = byte '-' then skipNegativeNumber
  else
    match digit? b with
    | some first => skipNumberFrom first
    | none => fail .expectedValue

def skipKey : Reader Unit :=
  token .endInObject fun b => do
    if b = byte '"' then
      skipString
      colon
    else fail .keyNotString

/-- What is due next. Each case lists the brackets that are open around it, the innermost first. -/
inductive Due where
  | value (outer : List Bracket)
  | first (bracket : Bracket) (outer : List Bracket)
  | next (bracket : Bracket) (outer : List Bracket)

def Due.after : List Bracket → Option Due
  | [] => none
  | bracket :: outer => some (.next bracket outer)

def skipLabel : Bracket → Reader Unit
  | .array => pure ()
  | .object => skipKey

def skipToValue (bracket : Bracket) (outer : List Bracket) : Reader (Option Due) := do
  skipLabel bracket
  return some (.value (bracket :: outer))

def skipStep : Due → Reader (Option Due)
  | .value outer => token .endInValue fun b => do
    match Bracket.opened? b with
    | some bracket => return some (.first bracket outer)
    | none =>
      skipScalar b
      return Due.after outer
  | .first bracket outer => do
    blanks
    match ← peek? with
    | none => fail bracket.ending
    | some b =>
      if b = bracket.closing then
        let _ ← next?
        return Due.after outer
      else skipToValue bracket outer
  | .next bracket outer => token bracket.ending fun b =>
    if b = bracket.closing then return Due.after outer
    else if b = byte ',' then skipToValue bracket outer
    else fail bracket.expectedEnd

/-- Only the step into a bracket may take nothing. -/
def Due.weight : Due → Nat
  | .first _ _ => 1
  | _ => 0

theorem Due.weight_le (due : Due) : due.weight ≤ 1 := by cases due <;> simp [weight]

theorem Due.weight_after {outer : List Bracket} {due : Due} (h : after outer = some due) :
    due.weight = 0 := by
  cases outer with
  | nil => nomatch h
  | cons b outer => cases h; rfl

theorem weight_skipToValue {bracket : Bracket} {outer : List Bracket} {due : Due} {s t : Bytes}
    (h : (skipToValue bracket outer).run s = .ok (some due, t)) : due.weight = 0 := by
  obtain ⟨_, _, _, h⟩ := run_bind_ok.1 h
  obtain ⟨h, _⟩ := run_pure_ok.1 h
  cases h; rfl

theorem skipStep_progress {due due' : Due} {s t : Bytes}
    (h : (skipStep due).run s = .ok (some due', t)) :
    2 * t.length + due'.weight < 2 * s.length + due.weight := by
  have weight_le := due'.weight_le
  cases due with
  | value outer =>
    have := token_rest_lt h
    omega
  | next bracket outer =>
    have := token_rest_lt h
    omega
  | first bracket outer =>
    have le := (skipStep (.first bracket outer)).rest_le h
    have flat : due'.weight = 0 := by
      obtain ⟨_, _, _, h⟩ := run_bind_ok.1 h
      obtain ⟨head, _, _, h⟩ := run_bind_ok.1 h
      cases head with
      | none => nomatch h
      | some b =>
        dsimp only at h
        split at h
        · obtain ⟨_, _, _, h⟩ := run_bind_ok.1 h
          exact Due.weight_after (run_pure_ok.1 h).1
        · exact weight_skipToValue h
    simp only [Due.weight] at flat ⊢
    omega

def skipFrom (due : Due) (s : Bytes) : Except Fault (Unit × Bytes) :=
  match _h : (skipStep due).run s with
  | .error e => .error e
  | .ok (none, r) => .ok ((), r)
  | .ok (some due', r) => skipFrom due' r
termination_by 2 * s.length + due.weight
decreasing_by exact skipStep_progress _h

theorem skipFrom_length_le (due : Due) (s : Bytes) : ∀ {u r},
    skipFrom due s = .ok (u, r) → r.length ≤ s.length := by
  fun_induction skipFrom due s with
  | case1 => nofun
  | case2 due s r h => intro u t ht; cases ht; exact (skipStep due).rest_le h
  | case3 due s due' r h ih =>
    intro u t ht
    exact Nat.le_trans (ih ht) ((skipStep due).rest_le h)

def skipValue : Reader Unit where
  run := skipFrom (.value [])
  rest_le := skipFrom_length_le _ _

end LatencyGate.Json.Reader
