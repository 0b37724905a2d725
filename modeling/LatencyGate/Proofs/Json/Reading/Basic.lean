import Mathlib
import LatencyGate.Json.Reader.List
import LatencyGate.Json.Reader.Number
import LatencyGate.Proofs.Json.Grammar

/-!
# Readers and the grammar

`Denotes reader meaning` ties a reader to the grammar from both sides: on the bytes of a spelling it
gives the meaning of the spelling, or a refusal if there is none, and it accepts nothing but the
bytes of spellings. What stands behind a value must not be able to continue it as a number.
-/

namespace LatencyGate.Json.Reader

variable {α β σ : Type}

def result? (reader : Reader α) (s : Bytes) : Option (α × Bytes) := (reader.run s).toOption

theorem result?_eq_some {reader : Reader α} {s r : Bytes} {a : α} :
    reader.result? s = some (a, r) ↔ reader.run s = .ok (a, r) := by
  unfold result?
  cases reader.run s <;> simp [Except.toOption]

theorem result?_of_ok {reader : Reader α} {s r : Bytes} {a : α} (ok : reader.run s = .ok (a, r)) :
    reader.result? s = some (a, r) :=
  result?_eq_some.2 ok

theorem result?_bind (reader : Reader α) (f : α → Reader β) (s : Bytes) :
    (reader >>= f).result? s = (reader.result? s).bind fun (a, r) => (f a).result? r := by
  unfold result?
  rw [run_bind]
  cases reader.run s <;> rfl

theorem result?_bind_some {reader : Reader α} {s r : Bytes} {a : α}
    (taken : reader.result? s = some (a, r)) (f : α → Reader β) :
    (reader >>= f).result? s = (f a).result? r := by
  rw [result?_bind, taken]
  rfl

theorem result?_pure (a : α) (s : Bytes) : (pure a : Reader α).result? s = some (a, s) := rfl

section
variable (f : Option UInt8 → Reader α)

theorem run_peek?_bind (s : Bytes) : (peek? >>= f).run s = (f s.head?).run s := rfl

theorem run_next?_bind (s : Bytes) : (next? >>= f).run s = (f s.head?).run s.tail := rfl

theorem result?_peek?_bind (s : Bytes) : (peek? >>= f).result? s = (f s.head?).result? s := rfl

theorem result?_next?_bind (s : Bytes) : (next? >>= f).result? s = (f s.head?).result? s.tail := rfl

end

theorem isBlank_byte (blank : Blank) : isBlank blank.byte = true := by
  cases blank <;> rfl

theorem exists_blank {b : UInt8} (blank : isBlank b = true) : ∃ c : Blank, c.byte = b := by
  simp only [isBlank, Bool.or_eq_true, beq_iff_eq] at blank
  rcases blank with ((rfl | rfl) | rfl) | rfl
  · exact ⟨.space, rfl⟩
  · exact ⟨.lineFeed, rfl⟩
  · exact ⟨.tab, rfl⟩
  · exact ⟨.carriageReturn, rfl⟩

theorem gap_append (gap gap' : Gap) : Gap.bytes (gap ++ gap') = Gap.bytes gap ++ Gap.bytes gap' :=
  List.map_append

theorem skipBlanks_gap (gap : Gap) (s : Bytes) : skipBlanks (Gap.bytes gap ++ s) = skipBlanks s := by
  induction gap with
  | nil => rfl
  | cons blank gap ih =>
      rw [← ih]
      exact List.dropWhile_cons_of_pos (isBlank_byte blank)

theorem skipBlanks_visible {b : UInt8} (visible : isBlank b = false) (gap : Gap) (s : Bytes) :
    skipBlanks (Gap.bytes gap ++ b :: s) = b :: s := by
  rw [skipBlanks_gap]
  exact List.dropWhile_cons_of_neg (by rw [visible]; exact Bool.false_ne_true)

theorem skipBlanks_blanks (gap : Gap) : skipBlanks (Gap.bytes gap) = [] := by
  have skipped := skipBlanks_gap gap []
  rwa [List.append_nil] at skipped

theorem exists_gap (s : Bytes) : ∃ gap, s = Gap.bytes gap ++ skipBlanks s := by
  induction s with
  | nil => exact ⟨[], rfl⟩
  | cons b s ih =>
      by_cases blank : isBlank b = true
      · obtain ⟨gap, eq⟩ := ih
        obtain ⟨c, rfl⟩ := exists_blank blank
        refine ⟨c :: gap, ?_⟩
        have skipped : skipBlanks (c.byte :: s) = skipBlanks s := List.dropWhile_cons_of_pos blank
        rw [skipped]
        exact congrArg (c.byte :: ·) eq
      · exact ⟨[], (List.dropWhile_cons_of_neg blank).symm⟩

theorem exists_gap_of_skipBlanks {b : UInt8} {s r : Bytes} (skipped : skipBlanks s = b :: r) :
    isBlank b = false ∧ ∃ gap, s = Gap.bytes gap ++ b :: r := by
  refine ⟨?_, ?_⟩
  · have head := List.head?_dropWhile_not isBlank s
    have whole : (s.dropWhile isBlank).head? = some b := congrArg List.head? skipped
    rw [whole] at head
    exact head
  · obtain ⟨gap, eq⟩ := exists_gap s
    rw [skipped] at eq
    exact ⟨gap, eq⟩

theorem result?_blanks {b : UInt8} (visible : isBlank b = false) (gap : Gap) (s : Bytes) :
    blanks.result? (Gap.bytes gap ++ b :: s) = some ((), b :: s) :=
  congrArg (fun r => some ((), r)) (skipBlanks_visible visible gap s)

theorem result?_token {atEnd : Cause} {dispatch : UInt8 → Reader α} {b : UInt8}
    (visible : isBlank b = false) (gap : Gap) (s : Bytes) :
    (token atEnd dispatch).result? (Gap.bytes gap ++ b :: s) = (dispatch b).result? s := by
  simp only [result?, token, skipBlanks_visible visible]

theorem spelled_token {atEnd : Cause} {dispatch : UInt8 → Reader α} {s r : Bytes} {a : α}
    (ok : (token atEnd dispatch).run s = .ok (a, r)) :
    ∃ gap b t, s = Gap.bytes gap ++ b :: t ∧ isBlank b = false ∧ (dispatch b).run t = .ok (a, r) := by
  obtain ⟨b, t, skipped, read⟩ := run_token_ok.1 ok
  obtain ⟨visible, gap, eq⟩ := exists_gap_of_skipBlanks skipped
  exact ⟨gap, b, t, eq, visible, read⟩

theorem result?_word (cs : List Char) (rest : Bytes) :
    (word cs).result? (Spelling.wordBytes cs ++ rest) = some ((), rest) := by
  induction cs with
  | nil => rfl
  | cons c cs ih =>
      change (word (c :: cs)).result? (byte c :: (Spelling.wordBytes cs ++ rest)) = _
      rw [word, result?_next?_bind]
      simpa using ih

theorem spelled_word {cs : List Char} {s r : Bytes} {u : Unit} (ok : (word cs).run s = .ok (u, r)) :
    s = Spelling.wordBytes cs ++ r := by
  induction cs generalizing s with
  | nil => exact (run_pure_ok.1 ok).2
  | cons c cs ih =>
      rw [word, run_next?_bind] at ok
      cases s with
      | nil => cases ok
      | cons b s =>
          simp only [List.head?_cons, List.tail_cons] at ok
          split at ok
          · rename_i same
            rw [same, ih ok]
            rfl
          · cases ok

def Stops (rest : Bytes) : Prop :=
  ∀ b ∈ rest.head?, digit? b = none ∧ b ≠ byte '.' ∧ isExponentMark b = false

theorem stops_nil : Stops [] := nofun

theorem stops_gap {rest : Bytes} (gap : Gap) (stops : Stops rest) : Stops (Gap.bytes gap ++ rest) := by
  cases gap with
  | nil => exact stops
  | cons blank gap =>
      intro b head
      obtain rfl : blank.byte = b := Option.some.inj head
      cases blank <;> decide

theorem stops_blanks (gap : Gap) : Stops (Gap.bytes gap) := by
  have stops := stops_gap gap stops_nil
  rwa [List.append_nil] at stops

theorem stops_itemBytes (items : List Spelling.Item) (rest : Bytes) :
    Stops (Spelling.itemBytes items ++ rest) := by
  cases items <;> intro b head <;> cases head <;> decide

theorem stops_memberBytes (members : List Spelling.Member) (rest : Bytes) :
    Stops (Spelling.memberBytes members ++ rest) := by
  cases members <;> intro b head <;> cases head <;> decide

/-! ## Denotations -/

/-- The reader accepts the spellings that have a meaning, and nothing else. -/
structure Denotes (reader : Reader α) (meaning : Spelling → Option α) : Prop where
  reads : ∀ gap v rest, Stops rest →
    reader.result? (Gap.bytes gap ++ (v.bytes ++ rest)) = (meaning v).map (·, rest)
  spelled : ∀ s a r, reader.run s = .ok (a, r) → ∃ gap v, s = Gap.bytes gap ++ (Spelling.bytes v ++ r)

namespace Denotes

variable {reader : Reader α} {meaning : Spelling → Option α}

theorem reads_here (denotes : Denotes reader meaning) (v : Spelling) {rest : Bytes}
    (stops : Stops rest) : reader.result? (v.bytes ++ rest) = (meaning v).map (·, rest) :=
  denotes.reads [] v rest stops

theorem map (denotes : Denotes reader meaning) (f : α → β) :
    Denotes (do return f (← reader)) fun v => (meaning v).map f where
  reads gap v rest stops := by
    change (reader >>= fun a => pure (f a)).result? _ = _
    rw [result?_bind, denotes.reads gap v rest stops]
    cases meaning v <;> rfl
  spelled s b r ok := by
    obtain ⟨a, t, read, ok⟩ := run_bind_ok.1 ok
    obtain ⟨-, rfl⟩ := run_pure_ok.1 ok
    exact denotes.spelled s a t read

end Denotes

def firstByte : Spelling → UInt8
  | .null => byte 'n'
  | .bool true => byte 't'
  | .bool false => byte 'f'
  | .number n => if n.negative then byte '-' else digitByte n.first
  | .string _ => byte '"'
  | .array _ _ => byte '['
  | .object _ _ => byte '\x7b'

theorem exists_bytes_eq_cons (v : Spelling) : ∃ s, v.bytes = firstByte v :: s := by
  cases v with
  | null => exact ⟨_, rfl⟩
  | bool b => cases b <;> exact ⟨_, rfl⟩
  | number n =>
      simp only [Spelling.bytes, Numeral.bytes, firstByte]
      split <;> exact ⟨_, rfl⟩
  | string l => exact ⟨_, rfl⟩
  | array inside items => cases items <;> exact ⟨_, rfl⟩
  | object inside members => cases members <;> exact ⟨_, rfl⟩

theorem firstByte_visible (v : Spelling) :
    isBlank (firstByte v) = false ∧ firstByte v ≠ byte ']' := by
  have digit (d : Fin 10) : isBlank (digitByte d) = false ∧ digitByte d ≠ byte ']' := by
    revert d
    decide
  cases v with
  | bool b => cases b <;> exact ⟨rfl, by decide⟩
  | number n =>
      rw [firstByte]
      split
      · exact ⟨rfl, by decide⟩
      · exact digit n.first
  | _ => exact ⟨rfl, fun same => nomatch same⟩

theorem result?_token_bytes {atEnd : Cause} {dispatch : UInt8 → Reader α} (gap : Gap) (v : Spelling)
    (rest : Bytes) : (token atEnd dispatch).result? (Gap.bytes gap ++ (v.bytes ++ rest)) =
      (dispatch (firstByte v)).result? (v.bytes.tail ++ rest) := by
  obtain ⟨s, eq⟩ := exists_bytes_eq_cons v
  rw [eq]
  exact result?_token (firstByte_visible v).1 gap (s ++ rest)

/-! ## Documents -/

theorem readAll_eq_ok_iff {reader : Reader α} {meaning : Spelling → Option α}
    (denotes : Denotes reader meaning) {a : α} (d : Document) :
    readAll reader d.bytes = .ok a ↔ meaning d.value = some a := by
  have read := denotes.reads d.before d.value (Gap.bytes d.after) (stops_blanks d.after)
  change reader.result? d.bytes = _ at read
  unfold readAll
  simp only [run_bind]
  cases run : reader.run d.bytes with
  | error fault =>
      have none : reader.result? d.bytes = none := by
        rw [result?, run]
        rfl
      rw [none] at read
      cases found : meaning d.value with
      | none => simp
      | some b =>
          rw [found] at read
          cases read
  | ok result =>
      obtain ⟨b, r⟩ := result
      rw [result?_of_ok run] at read
      cases found : meaning d.value with
      | none =>
          rw [found] at read
          cases read
      | some c =>
          rw [found] at read
          cases read
          -- Behind the value there are only blanks, which are taken as well.
          have ended : blanks.run (Gap.bytes d.after) = .ok ((), []) :=
            congrArg (fun r => Except.ok ((), r)) (skipBlanks_blanks d.after)
          simp [ended, peek?, run_pure]

theorem exists_document {reader : Reader α} {meaning : Spelling → Option α}
    (denotes : Denotes reader meaning) {document : Bytes} {a : α}
    (ok : readAll reader document = .ok a) : ∃ d : Document, d.bytes = document := by
  unfold readAll at ok
  simp only at ok
  split at ok
  · cases ok
  · rename_i read
    obtain ⟨b, r, read, ended⟩ := run_bind_ok.1 read
    obtain ⟨u, t, skipped, ended⟩ := run_bind_ok.1 ended
    obtain ⟨gap, v, rfl⟩ := denotes.spelled document b r read
    obtain ⟨head, t', peeked, ended⟩ := run_bind_ok.1 ended
    cases skipped
    cases peeked
    cases rest : skipBlanks r with
    | cons b s =>
        rw [rest] at ended
        cases ended
    | nil =>
        obtain ⟨after, eq⟩ := exists_gap r
        rw [rest, List.append_nil] at eq
        exact ⟨⟨gap, v, after⟩, by rw [eq]; rfl⟩

/-! ## Separated lists -/

section
variable {separator : Separator} {item : σ → Reader σ} {first : Bool} {state state' : σ} {s r : Bytes}

theorem foldFrom_of_end (item : σ → Reader σ) (state : σ)
    (ended : (separator.another first).result? s = some (false, r)) :
    (foldFrom separator item first state s).toOption = some (state, r) := by
  have run := result?_eq_some.1 ended
  rw [foldFrom]
  split
  all_goals
    rename_i other
    rw [other] at run
    cases run
  rfl

theorem foldFrom_of_more (item : σ → Reader σ) (state : σ)
    (more : (separator.another first).result? s = some (true, r)) :
    (foldFrom separator item first state s).toOption =
      ((item state).result? r).bind fun (next, r) =>
        (foldFrom separator item false next r).toOption := by
  have run := result?_eq_some.1 more
  rw [foldFrom]
  split
  all_goals
    rename_i other
    rw [other] at run
    cases run
  unfold result?
  split
  · rename_i failed
    rw [failed]
    rfl
  · rename_i taken
    rw [taken]
    rfl

theorem foldFrom_ok (ok : foldFrom separator item first state s = .ok (state', r)) :
    ((separator.another first).run s = .ok (false, r) ∧ state = state') ∨
      ∃ t next t', (separator.another first).run s = .ok (true, t) ∧
        (item state).run t = .ok (next, t') ∧
        foldFrom separator item false next t' = .ok (state', r) := by
  rw [foldFrom] at ok
  split at ok
  · cases ok
  · rename_i ended
    cases ok
    exact .inl ⟨ended, rfl⟩
  · rename_i more
    split at ok
    · cases ok
    · rename_i taken
      exact .inr ⟨_, _, _, more, taken, ok⟩

end

end LatencyGate.Json.Reader
