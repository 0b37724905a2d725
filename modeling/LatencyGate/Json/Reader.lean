import LatencyGate.Json.Fault

/-!
# Readers

A reader takes bytes from the front of its input and gives a result and the rest, or a fault. It
carries the proof that the rest is no longer than the input, which is what the loops over items and
members end by. A fault counts the bytes that are left where it is raised.
-/

namespace LatencyGate.Json

structure Reader (α : Type) where
  run : Bytes → Except Fault (α × Bytes)
  rest_le : ∀ {s a r}, run s = .ok (a, r) → r.length ≤ s.length

namespace Reader

variable {α β σ : Type}

protected def pure (a : α) : Reader α where
  run s := .ok (a, s)
  rest_le h := by cases h; exact Nat.le_refl _

protected def bind (x : Reader α) (f : α → Reader β) : Reader β where
  run s :=
    match x.run s with
    | .error e => .error e
    | .ok (a, r) => (f a).run r
  rest_le {s b t} h := by
    revert h
    cases hx : x.run s with
    | error e => nofun
    | ok p => exact fun h => Nat.le_trans ((f p.1).rest_le h) (x.rest_le hx)

instance : Monad Reader where
  pure := Reader.pure
  bind := Reader.bind

def fail (cause : Cause) : Reader α where
  run s := .error ⟨cause, s.length, 0⟩
  rest_le h := nomatch h

def failAfterNext (cause : Cause) : Reader α where
  run s := .error ⟨cause, s.length - 1, 0⟩
  rest_le h := nomatch h

def failEarlier (cause : Cause) (columns : Nat) : Reader α where
  run s := .error ⟨cause, s.length, columns⟩
  rest_le h := nomatch h

def failBeforeLast (cause : Cause) : Reader α where
  run s := .error ⟨cause, s.length + 1, 0⟩
  rest_le h := nomatch h

def peek? : Reader (Option UInt8) where
  run s := .ok (s.head?, s)
  rest_le h := by cases h; exact Nat.le_refl _

def next? : Reader (Option UInt8) where
  run s := .ok (s.head?, s.tail)
  rest_le {s} _ _ h := by injection h with h; injection h with _ h; subst h; simp

def byte (c : Char) : UInt8 := c.toUInt8

def word : List Char → Reader Unit
  | [] => pure ()
  | c :: rest => do
    match ← next? with
    | none => fail .endInValue
    | some b => if b = byte c then word rest else fail .expectedWord

def isBlank (b : UInt8) : Bool := b == 0x20 || b == 0x0A || b == 0x09 || b == 0x0D

def skipBlanks (s : Bytes) : Bytes := s.dropWhile isBlank

theorem skipBlanks_length_le (s : Bytes) : (skipBlanks s).length ≤ s.length :=
  (List.dropWhile_sublist isBlank).length_le

def blanks : Reader Unit where
  run s := .ok ((), skipBlanks s)
  rest_le {s} _ _ h := by injection h with h; injection h with _ h; subst h; exact skipBlanks_length_le s

/-- Takes the blanks and the byte behind them, which it passes to `dispatch`; at the end of the
input the fault is `atEnd`. -/
def token (atEnd : Cause) (dispatch : UInt8 → Reader α) : Reader α where
  run s :=
    match skipBlanks s with
    | [] => .error ⟨atEnd, 0, 0⟩
    | b :: r => (dispatch b).run r
  rest_le {s a t} h := by
    have le := skipBlanks_length_le s
    revert h
    cases hs : skipBlanks s with
    | nil => nofun
    | cons b r =>
      intro h
      rw [hs, List.length_cons] at le
      exact Nat.le_trans ((dispatch b).rest_le h) (Nat.le_of_succ_le le)

/-! ## Runs -/

theorem run_bind (x : Reader α) (f : α → Reader β) (s : Bytes) :
    (x >>= f).run s = match x.run s with
      | .error e => .error e
      | .ok (a, r) => (f a).run r :=
  rfl

theorem run_bind_ok {x : Reader α} {f : α → Reader β} {s t : Bytes} {b : β} :
    (x >>= f).run s = .ok (b, t) ↔ ∃ a r, x.run s = .ok (a, r) ∧ (f a).run r = .ok (b, t) := by
  rw [run_bind]
  cases x.run s with
  | error e => simp
  | ok p => obtain ⟨a, r⟩ := p; simp [and_assoc]

theorem run_pure (a : α) (s : Bytes) : (pure a : Reader α).run s = .ok (a, s) := rfl

theorem run_pure_ok {a b : α} {s t : Bytes} :
    (pure a : Reader α).run s = .ok (b, t) ↔ a = b ∧ s = t := by
  rw [run_pure]
  simp

theorem run_token_ok {atEnd : Cause} {dispatch : UInt8 → Reader α} {s t : Bytes} {a : α} :
    (token atEnd dispatch).run s = .ok (a, t) ↔
      ∃ b r, skipBlanks s = b :: r ∧ (dispatch b).run r = .ok (a, t) := by
  simp only [token]
  cases skipBlanks s with
  | nil => simp
  | cons b r => simp [and_assoc]

theorem token_rest_lt {atEnd : Cause} {dispatch : UInt8 → Reader α} {s t : Bytes} {a : α}
    (h : (token atEnd dispatch).run s = .ok (a, t)) : t.length < s.length := by
  obtain ⟨b, r, hs, hd⟩ := run_token_ok.1 h
  have le := skipBlanks_length_le s
  rw [hs, List.length_cons] at le
  exact Nat.lt_of_lt_of_le (Nat.lt_succ_of_le ((dispatch b).rest_le hd)) le

/-! ## Separated lists -/

/-- What stands before the items of a list. `another first` says whether there is one more item,
where `first` tells that there was none before; behind an item it takes at least a separator. -/
structure Separator where
  another : Bool → Reader Bool
  rest_lt : ∀ {s r}, (another false).run s = .ok (true, r) → r.length < s.length

def foldFrom (separator : Separator) (item : σ → Reader σ) (first : Bool) (state : σ) (s : Bytes) :
    Except Fault (σ × Bytes) :=
  match _h : (separator.another first).run s with
  | .error e => .error e
  | .ok (false, r) => .ok (state, r)
  | .ok (true, r) =>
    match _h' : (item state).run r with
    | .error e => .error e
    | .ok (state', r') => foldFrom separator item false state' r'
termination_by 2 * s.length + first.toNat
decreasing_by
  have le := (item state).rest_le _h'
  cases first with
  | true =>
    have := (separator.another true).rest_le _h
    simp only [Bool.toNat_true, Bool.toNat_false]; omega
  | false =>
    have := separator.rest_lt _h
    simp only [Bool.toNat_false]; omega

theorem foldFrom_length_le (separator : Separator) (item : σ → Reader σ) (first : Bool) (state : σ)
    (s : Bytes) : ∀ {a r}, foldFrom separator item first state s = .ok (a, r) →
      r.length ≤ s.length := by
  fun_induction foldFrom separator item first state s with
  | case1 => nofun
  | case2 => intro a r h; cases h; exact (separator.another _).rest_le ‹_›
  | case3 => nofun
  | case4 first state s r h state' r' h' ih =>
    intro a t ht
    exact Nat.le_trans (ih ht)
      (Nat.le_trans ((item state).rest_le h') ((separator.another first).rest_le h))

def fold (separator : Separator) (item : σ → Reader σ) (state : σ) : Reader σ where
  run := foldFrom separator item true state
  rest_le := foldFrom_length_le separator item true state _

def readAll (reader : Reader α) (document : Bytes) : Except ParseError α :=
  let whole : Reader α := do
    let a ← reader
    blanks
    match ← peek? with
    | none => pure a
    | some _ => failAfterNext .trailingCharacters
  match whole.run document with
  | .error fault => .error (fault.locate document)
  | .ok (a, _) => .ok a

end Reader

end LatencyGate.Json
