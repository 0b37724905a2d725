import Mathlib
import LatencyGate.Json.Reader.Skip
import LatencyGate.Proofs.Json.Meaning
import LatencyGate.Proofs.Json.Reading.Basic
import LatencyGate.Proofs.Json.Strings

namespace LatencyGate.Json.Reader

theorem hexDigit?_byte (d : HexDigit) : hexDigit? d.byte = some d.value.val := by
  obtain ⟨value, upper⟩ := d
  revert value upper
  decide

theorem toNat_hexDigit_byte (d : HexDigit) : d.byte.toNat =
    if d.value.val < 10 then 0x30 + d.value.val
    else if d.upper then 0x41 + (d.value.val - 10) else 0x61 + (d.value.val - 10) := by
  obtain ⟨value, upper⟩ := d
  revert value upper
  decide

theorem exists_hexDigit {b : UInt8} {n : Nat} (digit : hexDigit? b = some n) :
    ∃ d : HexDigit, d.byte = b ∧ d.value.val = n := by
  have spelled {n : Nat} (bound : n < 16) (upper : Bool)
      (same : (HexDigit.mk ⟨n, bound⟩ upper).byte.toNat = b.toNat) :
      ∃ d : HexDigit, d.byte = b ∧ d.value.val = n :=
    ⟨_, UInt8.toNat_inj.1 same, rfl⟩
  simp only [toNat_hexDigit_byte] at spelled
  unfold hexDigit? at digit
  simp only [UInt8.le_iff_toNat_le] at digit
  split at digit
  · rename_i range
    cases digit
    simp at range
    exact spelled (by omega) false (by rw [if_pos (by omega)]; omega)
  split at digit
  · rename_i range
    cases digit
    simp at range
    exact spelled (by omega) true (by rw [if_neg (by omega), if_pos rfl]; omega)
  split at digit
  · rename_i range
    cases digit
    simp at range
    exact spelled (by omega) false (by rw [if_neg (by omega), if_neg nofun]; omega)
  · cases digit

theorem run_hexFour (a b c d : HexDigit) (rest : Bytes) :
    hexFour.run (a.byte :: b.byte :: c.byte :: d.byte :: rest) = .ok (unitValue a b c d, rest) := by
  simp [hexFour, hexValue?, hexDigit?_byte, unitValue]

theorem spelled_hexFour {s r : Bytes} {n : Nat} (ok : hexFour.run s = .ok (n, r)) :
    ∃ a b c d : HexDigit, s = a.byte :: b.byte :: c.byte :: d.byte :: r := by
  unfold hexFour at ok
  dsimp only at ok
  split at ok
  · rename_i a b c d t
    split at ok
    · rename_i m value
      cases ok
      simp only [hexValue?, Option.bind_eq_bind, Option.bind_eq_some_iff] at value
      obtain ⟨_, ha, _, hb, _, hc, _, hd, -⟩ := value
      obtain ⟨a, rfl, -⟩ := exists_hexDigit ha
      obtain ⟨b, rfl, -⟩ := exists_hexDigit hb
      obtain ⟨c, rfl, -⟩ := exists_hexDigit hc
      obtain ⟨d, rfl, -⟩ := exists_hexDigit hd
      exact ⟨a, b, c, d, rfl⟩
    · cases ok
  · cases ok

theorem shortEscape?_letter {letter : Char} {b : UInt8} (short : (letter, b) ∈ shortEscapes) :
    shortEscape? (byte letter) = some b ∧ byte letter ≠ byte 'u' := by
  simp only [shortEscapes, List.mem_cons, Prod.mk.injEq, List.not_mem_nil, or_false] at short
  rcases short with ⟨rfl, rfl⟩ | ⟨rfl, rfl⟩ | ⟨rfl, rfl⟩ | ⟨rfl, rfl⟩ | ⟨rfl, rfl⟩ | ⟨rfl, rfl⟩ |
    ⟨rfl, rfl⟩ | ⟨rfl, rfl⟩ <;> decide

theorem exists_letter {b c : UInt8} (short : shortEscape? b = some c) :
    ∃ letter, byte letter = b ∧ (letter, c) ∈ shortEscapes := by
  unfold shortEscape? at short
  split at short
  · rename_i same
    cases short
    rcases same with rfl | rfl | rfl
    · exact ⟨'"', rfl, by decide⟩
    · exact ⟨'\\', rfl, by decide⟩
    · exact ⟨'/', rfl, by decide⟩
  split at short
  · subst_vars; cases short; exact ⟨'b', rfl, by decide⟩
  split at short
  · subst_vars; cases short; exact ⟨'f', rfl, by decide⟩
  split at short
  · subst_vars; cases short; exact ⟨'n', rfl, by decide⟩
  split at short
  · subst_vars; cases short; exact ⟨'r', rfl, by decide⟩
  split at short
  · subst_vars; cases short; exact ⟨'t', rfl, by decide⟩
  · cases short

theorem run_escape_short {letter : Char} {b : UInt8} (short : (letter, b) ∈ shortEscapes)
    (rest : Bytes) : escape.run (byte letter :: rest) = .ok ([b], rest) := by
  rw [escape, run_next?_bind]
  simp only [List.head?_cons, List.tail_cons, (shortEscape?_letter short).1, run_pure]

theorem spelled_pairByte {expected : UInt8} {s r : Bytes} {u : Unit}
    (ok : (pairByte expected).run s = .ok (u, r)) : s = expected :: r := by
  rw [pairByte, run_next?_bind] at ok
  cases s with
  | nil => cases ok
  | cons b s =>
      simp only [List.head?_cons, List.tail_cons] at ok
      split at ok
      · rename_i same
        rw [same, (run_pure_ok.1 ok).2]
      · cases ok

theorem spelled_hexEscape {s r : Bytes} {ch : Char} (ok : hexEscape.run s = .ok (ch, r)) :
    ∃ a b c d t, s = a.byte :: b.byte :: c.byte :: d.byte :: t ∧
      ((isLeading (unitValue a b c d) || isTrailing (unitValue a b c d)) = false ∧ t = r ∨
        isLeading (unitValue a b c d) = true ∧ ∃ a' b' c' d',
          isTrailing (unitValue a' b' c' d') = true ∧
          t = byte '\\' :: byte 'u' :: a'.byte :: b'.byte :: c'.byte :: d'.byte :: r) := by
  obtain ⟨n, t, four, ok⟩ := run_bind_ok.1 ok
  obtain ⟨a, b, c, d, rfl⟩ := spelled_hexFour four
  rw [run_hexFour] at four
  cases four
  refine ⟨a, b, c, d, t, rfl, ?_⟩
  split at ok
  · cases ok
  rename_i trailing
  split at ok
  · rename_i leading
    obtain ⟨_, t₁, backslash, ok⟩ := run_bind_ok.1 ok
    obtain ⟨_, t₂, letter, ok⟩ := run_bind_ok.1 ok
    obtain ⟨m, t₃, four, ok⟩ := run_bind_ok.1 ok
    obtain ⟨a', b', c', d', rfl⟩ := spelled_hexFour four
    rw [run_hexFour] at four
    cases four
    split at ok
    · rename_i trailing
      obtain ⟨-, rfl⟩ := run_pure_ok.1 ok
      refine .inr ⟨leading, a', b', c', d', trailing, ?_⟩
      rw [spelled_pairByte backslash, spelled_pairByte letter]
    · cases ok
  · rename_i leading
    exact .inl ⟨Bool.or_eq_false_iff.2 ⟨Bool.eq_false_iff.2 leading, Bool.eq_false_iff.2 trailing⟩,
      (run_pure_ok.1 ok).2⟩

theorem run_hexEscape_pair {a b c d a' b' c' d' : HexDigit}
    (leading : isLeading (unitValue a b c d) = true)
    (trailing : isTrailing (unitValue a' b' c' d') = true) (rest : Bytes) :
    hexEscape.run (a.byte :: b.byte :: c.byte :: d.byte :: byte '\\' :: byte 'u' ::
      a'.byte :: b'.byte :: c'.byte :: d'.byte :: rest) =
        .ok (pairChar (unitValue a b c d) (unitValue a' b' c' d'), rest) := by
  have first : isTrailing (unitValue a b c d) = false := by
    simp only [isLeading, isTrailing, Bool.and_eq_true, decide_eq_true_eq, Bool.and_eq_false_iff,
      decide_eq_false_iff_not] at leading ⊢
    omega
  have taken (expected : UInt8) (s : Bytes) : (pairByte expected).run (expected :: s) = .ok ((), s) := by
    rw [pairByte, run_next?_bind]
    simp only [List.head?_cons, List.tail_cons, ↓reduceIte, run_pure]
  simp only [hexEscape, run_bind, run_hexFour, first, leading, trailing, taken, run_pure,
    Bool.false_eq_true, ↓reduceIte]

theorem run_hexEscape_alone {a b c d : HexDigit} (leading : isLeading (unitValue a b c d) = false)
    (trailing : isTrailing (unitValue a b c d) = false) (rest : Bytes) :
    hexEscape.run (a.byte :: b.byte :: c.byte :: d.byte :: rest) =
      .ok (.ofNat (unitValue a b c d), rest) := by
  simp only [hexEscape, run_bind, run_hexFour, leading, trailing, run_pure, Bool.false_eq_true,
    ↓reduceIte]

theorem result?_escape_unit (s : Bytes) :
    escape.result? (byte 'u' :: s) =
      (hexEscape.result? s).map fun (c, r) => (String.utf8EncodeChar c, r) := by
  change (hexEscape >>= fun c => pure (String.utf8EncodeChar c) : Reader Bytes).result? s = _
  rw [result?_bind]
  cases hexEscape.result? s <;> rfl

theorem literal_cons (p : Piece) (l : Literal) (rest : Bytes) :
    Literal.bytes (p :: l) ++ rest = p.bytes ++ (Literal.bytes l ++ rest) := by
  rw [Literal.bytes, List.flatMap_cons, List.append_assoc]
  rfl

theorem literal_append (l l' : Literal) (rest : Bytes) :
    Literal.bytes (l ++ l') ++ rest = Literal.bytes l ++ (Literal.bytes l' ++ rest) := by
  rw [Literal.bytes, List.flatMap_append, List.append_assoc]
  rfl

theorem unitValue_eq {a b c d a' b' c' d' : HexDigit} {r r' : Bytes}
    (same : a.byte :: b.byte :: c.byte :: d.byte :: r =
      a'.byte :: b'.byte :: c'.byte :: d'.byte :: r') :
    unitValue a b c d = unitValue a' b' c' d' ∧ r = r' := by
  have four := run_hexFour a b c d r
  rw [same, run_hexFour] at four
  have result := Prod.mk.inj (Except.ok.inj four)
  exact ⟨result.1.symm, result.2.symm⟩

theorem exists_unit {l : Literal} {rest r : Bytes} {a b c d : HexDigit}
    (same : Literal.bytes l ++ byte '"' :: rest =
      byte '\\' :: byte 'u' :: a.byte :: b.byte :: c.byte :: d.byte :: r) :
    ∃ a' b' c' d' l', l = .unit a' b' c' d' :: l' ∧ unitValue a' b' c' d' = unitValue a b c d := by
  cases l with
  | nil => exact absurd (List.cons.inj same).1 (by decide)
  | cons p l =>
      rw [literal_cons] at same
      cases p with
      | plain b h => exact absurd (List.cons.inj same).1 h.2.2
      | short letter b h =>
          simp only [Piece.bytes, List.cons_append, List.cons.injEq] at same
          exact absurd same.2.1 (shortEscape?_letter h).2
      | unit a' b' c' d' =>
          exact ⟨a', b', c', d', l, rfl, (unitValue_eq (List.cons.inj (List.cons.inj same).2).2).1⟩

theorem stringBytesFrom_backslash (read s : Bytes) :
    (stringBytesFrom read (byte '\\' :: s)).toOption = (escape.result? s).bind fun (bytes, r) =>
      (stringBytesFrom (pushAll bytes read) r).toOption := by
  unfold result?
  cases run : escape.run s with
  | ok result =>
      rw [stringBytesFrom_escape run]
      rfl
  | error fault =>
      rw [stringBytesFrom, if_neg (by decide), if_pos rfl]
      split
      · rfl
      · rename_i taken
        rw [run] at taken
        cases taken

theorem bytes?_append (bytes : Bytes) (content : Content) :
    Content.bytes? (bytes.map .inl ++ content) = (Content.bytes? content).map (bytes ++ ·) := by
  induction bytes with
  | nil => simp
  | cons b bytes ih =>
      rw [List.map_cons, List.cons_append, Content.bytes?, ih]
      cases Content.bytes? content <;> rfl

def ReadsContent (l : Literal) (content : Content) : Prop :=
  ∀ read rest, (stringBytesFrom read (Literal.bytes l ++ byte '"' :: rest)).toOption =
    (Content.bytes? content).map fun bytes => (read.reverse ++ bytes, rest)

section
variable {l l' : Literal} {content : Content}

theorem readsContent_step (bytes : Bytes)
    (step : ∀ read rest, (stringBytesFrom read (Literal.bytes l ++ byte '"' :: rest)).toOption =
      (stringBytesFrom (pushAll bytes read) (Literal.bytes l' ++ byte '"' :: rest)).toOption)
    (reads : ReadsContent l' content) : ReadsContent l (bytes.map .inl ++ content) := by
  intro read rest
  rw [step, reads, bytes?_append]
  cases Content.bytes? content <;> simp [pushAll]

theorem stringBytesFrom_unit (a b c d : HexDigit) (read rest : Bytes) :
    (stringBytesFrom read (Literal.bytes (.unit a b c d :: l) ++ byte '"' :: rest)).toOption =
      (hexEscape.result? (a.byte :: b.byte :: c.byte :: d.byte ::
        (Literal.bytes l ++ byte '"' :: rest))).bind fun (ch, r) =>
          (stringBytesFrom (pushAll (String.utf8EncodeChar ch) read) r).toOption := by
  rw [literal_cons]
  change (stringBytesFrom read (byte '\\' :: byte 'u' :: _)).toOption = _
  rw [stringBytesFrom_backslash, result?_escape_unit]
  exact Option.bind_map

/-- An escape that is no leading half, or is not followed by a trailing one, stands for itself. -/
theorem readsContent_alone {a b c d : HexDigit}
    (unpaired : isLeading (unitValue a b c d) = true → ∀ a' b' c' d' rest,
      l = .unit a' b' c' d' :: rest → isTrailing (unitValue a' b' c' d') = false)
    (reads : ReadsContent l content) :
    ReadsContent (.unit a b c d :: l) (unitContent (unitValue a b c d) ++ content) := by
  by_cases half : isLeading (unitValue a b c d) || isTrailing (unitValue a b c d)
  · intro read rest
    -- Alone, neither half makes a character.
    have refused : hexEscape.result? (a.byte :: b.byte :: c.byte :: d.byte ::
        (Literal.bytes l ++ byte '"' :: rest)) = none := by
      rw [Option.eq_none_iff_forall_ne_some]
      rintro ⟨ch, r⟩ taken
      obtain ⟨a₁, b₁, c₁, d₁, t, same, taken⟩ := spelled_hexEscape (result?_eq_some.1 taken)
      obtain ⟨value, rfl⟩ := unitValue_eq same
      rw [← value] at taken
      rcases taken with ⟨whole, -⟩ | ⟨leading, a₂, b₂, c₂, d₂, trailing, follows⟩
      · rw [half] at whole
        cases whole
      · obtain ⟨a', b', c', d', l', rfl, value'⟩ := exists_unit follows
        rw [← value', unpaired leading a' b' c' d' l' rfl] at trailing
        cases trailing
    rw [stringBytesFrom_unit, refused, unitContent, if_pos half]
    rfl
  · obtain ⟨leading, trailing⟩ := Bool.or_eq_false_iff.1 (Bool.eq_false_iff.2 half)
    rw [unitContent, if_neg half]
    refine readsContent_step _ (fun read rest => ?_) reads
    rw [stringBytesFrom_unit, result?_of_ok (run_hexEscape_alone leading trailing _)]
    rfl

end

theorem readsContent (l : Literal) : ReadsContent l (Literal.content l) := by
  -- Only the two halves of a surrogate pair are taken in one step.
  fun_induction Literal.content l with
  | case1 =>
      intro read rest
      change (stringBytesFrom read (byte '"' :: rest)).toOption = _
      rw [stringBytesFrom_quote]
      simp [Except.toOption, Content.bytes?]
  | case2 b h l ih =>
      refine readsContent_step [b] (fun read rest => ?_) ih
      have plain : ∀ c ∈ [b], IsPlain c := by
        intro c member
        rw [List.mem_singleton.1 member]
        exact ⟨h.2.1, h.2.2, UInt8.not_lt.2 h.1⟩
      rw [literal_cons]
      exact congrArg Except.toOption (stringBytesFrom_plain read _ plain)
  | case3 letter b h l ih =>
      refine readsContent_step [b] (fun read rest => ?_) ih
      rw [literal_cons]
      exact congrArg Except.toOption (stringBytesFrom_escape (run_escape_short h _))
  | case4 a b c d a' b' c' d' l pair ih =>
      obtain ⟨leading, trailing⟩ := (Bool.and_eq_true _ _).mp pair
      refine readsContent_step _ (fun read rest => ?_) ih
      rw [stringBytesFrom_unit, literal_cons]
      exact congrArg (fun result => Option.bind result _)
        (result?_of_ok (run_hexEscape_pair leading trailing _))
  | case5 a b c d a' b' c' d' l pair ih =>
      refine readsContent_alone (fun leading e f g h rest same => ?_) ih
      cases same
      rw [leading, Bool.true_and] at pair
      exact Bool.eq_false_iff.2 pair
  | case6 a b c d l other ih =>
      exact readsContent_alone (fun _ e f g h rest same => absurd same (other e f g h rest)) ih

theorem result?_string (l : Literal) (rest : Bytes) :
    string.result? (Literal.bytes l ++ byte '"' :: rest) = (Literal.text? l).map (·, rest) := by
  have bytes : stringBytes.result? (Literal.bytes l ++ byte '"' :: rest) =
      (Content.bytes? (Literal.content l)).map fun bytes => (bytes, rest) :=
    readsContent l [] rest
  rw [string, result?_bind, bytes, Literal.text?, Content.text?]
  cases Content.bytes? (Literal.content l) with
  | none => rfl
  | some bytes =>
      simp only [Option.map_some, Option.bind_some]
      split <;> rfl

theorem spelled_escape {s r bytes : Bytes} (ok : escape.run s = .ok (bytes, r)) :
    ∃ l : Literal, byte '\\' :: s = Literal.bytes l ++ r := by
  rw [escape, run_next?_bind] at ok
  cases s with
  | nil => cases ok
  | cons b s =>
      simp only [List.head?_cons, List.tail_cons] at ok
      split at ok
      · rename_i meant short
        obtain ⟨letter, rfl, member⟩ := exists_letter short
        obtain ⟨-, rfl⟩ := run_pure_ok.1 ok
        exact ⟨[.short letter meant member], rfl⟩
      split at ok
      · rename_i hex
        subst hex
        obtain ⟨ch, t, taken, ok⟩ := run_bind_ok.1 ok
        obtain ⟨-, rfl⟩ := run_pure_ok.1 ok
        obtain ⟨a, b, c, d, t', rfl, ⟨-, rfl⟩ | ⟨-, a', b', c', d', -, rfl⟩⟩ :=
          spelled_hexEscape taken
        · exact ⟨[.unit a b c d], rfl⟩
        · exact ⟨[.unit a b c d, .unit a' b' c' d'], rfl⟩
      · cases ok

theorem spelled_stringBytesFrom {read s r bytes : Bytes}
    (ok : stringBytesFrom read s = .ok (bytes, r)) :
    ∃ l : Literal, s = Literal.bytes l ++ byte '"' :: r := by
  fun_induction stringBytesFrom read s with
  | case1 => cases ok
  | case2 read s =>
      cases ok
      exact ⟨[], rfl⟩
  | case3 => cases ok
  | case4 read s bytes t taken quote ih =>
      obtain ⟨first, eq⟩ := spelled_escape taken
      obtain ⟨l, rfl⟩ := ih ok
      exact ⟨first ++ l, by rw [literal_append, ← eq]⟩
  | case5 => cases ok
  | case6 read b s quote backslash control ih =>
      obtain ⟨l, rfl⟩ := ih ok
      exact ⟨.plain b ⟨UInt8.not_lt.1 control, quote, backslash⟩ :: l, rfl⟩

theorem spelled_string {s r : Bytes} {text : String} (ok : string.run s = .ok (text, r)) :
    ∃ l : Literal, s = Literal.bytes l ++ byte '"' :: r := by
  obtain ⟨bytes, t, taken, ok⟩ := run_bind_ok.1 ok
  dsimp only at ok
  split at ok
  · obtain ⟨-, rfl⟩ := run_pure_ok.1 ok
    exact spelled_stringBytesFrom taken
  · cases ok

theorem run_skipEscape_short {letter : Char} {b : UInt8} (short : (letter, b) ∈ shortEscapes)
    (rest : Bytes) : skipEscape.run (byte letter :: rest) = .ok ((), rest) := by
  rw [skipEscape, run_next?_bind]
  simp only [List.head?_cons, List.tail_cons, (shortEscape?_letter short).1, Option.isSome_some,
    ↓reduceIte, run_pure]

theorem run_skipEscape_unit (a b c d : HexDigit) (rest : Bytes) :
    skipEscape.run (byte 'u' :: a.byte :: b.byte :: c.byte :: d.byte :: rest) = .ok ((), rest) := by
  change (hexFour >>= fun _ => pure () : Reader Unit).run
    (a.byte :: b.byte :: c.byte :: d.byte :: rest) = _
  rw [run_bind, run_hexFour]
  rfl

theorem skipStringFrom_escape {rest rest' : Bytes} (h : skipEscape.run rest = .ok ((), rest')) :
    skipStringFrom (byte '\\' :: rest) = skipStringFrom rest' := by
  rw [skipStringFrom, if_neg (by decide), if_pos rfl]
  split
  · rename_i failed
    rw [h] at failed
    cases failed
  · rename_i taken
    rw [h] at taken
    cases taken
    rfl

theorem skipStringFrom_literal (l : Literal) (rest : Bytes) :
    skipStringFrom (Literal.bytes l ++ byte '"' :: rest) = .ok ((), rest) := by
  induction l with
  | nil =>
      change skipStringFrom (byte '"' :: rest) = _
      rw [skipStringFrom, if_pos rfl]
  | cons p l ih =>
      rw [literal_cons, ← ih]
      cases p with
      | plain b h =>
          change skipStringFrom (b :: _) = _
          rw [skipStringFrom, if_neg h.2.1, if_neg h.2.2, if_neg (UInt8.not_lt.2 h.1)]
          rfl
      | short letter b h => exact skipStringFrom_escape (run_skipEscape_short h _)
      | unit a b c d => exact skipStringFrom_escape (run_skipEscape_unit a b c d _)

theorem spelled_skipEscape {s r : Bytes} {u : Unit} (ok : skipEscape.run s = .ok (u, r)) :
    ∃ p : Piece, byte '\\' :: s = p.bytes ++ r := by
  rw [skipEscape, run_next?_bind] at ok
  cases s with
  | nil => cases ok
  | cons b s =>
      simp only [List.head?_cons, List.tail_cons] at ok
      split at ok
      · rename_i short
        obtain ⟨meant, short⟩ := Option.isSome_iff_exists.1 short
        obtain ⟨letter, rfl, member⟩ := exists_letter short
        obtain ⟨-, rfl⟩ := run_pure_ok.1 ok
        exact ⟨.short letter meant member, rfl⟩
      split at ok
      · rename_i hex
        subst hex
        obtain ⟨n, t, taken, ok⟩ := run_bind_ok.1 ok
        obtain ⟨-, rfl⟩ := run_pure_ok.1 ok
        obtain ⟨a, b, c, d, rfl⟩ := spelled_hexFour taken
        exact ⟨.unit a b c d, rfl⟩
      · cases ok

theorem spelled_skipStringFrom {s r : Bytes} {u : Unit} (ok : skipStringFrom s = .ok (u, r)) :
    ∃ l : Literal, s = Literal.bytes l ++ byte '"' :: r := by
  fun_induction skipStringFrom s with
  | case1 => cases ok
  | case2 s =>
      cases ok
      exact ⟨[], rfl⟩
  | case3 => cases ok
  | case4 s t taken quote ih =>
      obtain ⟨p, eq⟩ := spelled_skipEscape taken
      obtain ⟨l, rfl⟩ := ih ok
      exact ⟨p :: l, by rw [literal_cons, ← eq]⟩
  | case5 => cases ok
  | case6 b s quote backslash control ih =>
      obtain ⟨l, rfl⟩ := ih ok
      exact ⟨.plain b ⟨UInt8.not_lt.1 control, quote, backslash⟩ :: l, rfl⟩

end LatencyGate.Json.Reader
