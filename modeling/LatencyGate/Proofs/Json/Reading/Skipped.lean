import Mathlib
import LatencyGate.Json.Reader.Skip
import LatencyGate.Proofs.Json.Reading.Values

/-!
# Skipping values

The skipper takes every spelling, and nothing else. It works on a list of open brackets, so both
directions are proved for a value inside any brackets. What remains to be taken inside of them is
what the brackets demand.
-/

namespace LatencyGate.Json.Reader

theorem skipScalar_digitByte (d : Fin 10) : skipScalar (digitByte d) = skipNumberFrom d.val := by
  fin_cases d <;> rfl

theorem result?_skipScalar {v : Spelling} (scalar : Spelling.IsScalar v) {rest : Bytes}
    (stops : Stops rest) :
    (skipScalar (firstByte v)).result? (v.bytes.tail ++ rest) = some ((), rest) := by
  cases v with
  | null => exact result?_word ['u', 'l', 'l'] rest
  | bool b =>
      cases b with
      | true => exact result?_word ['r', 'u', 'e'] rest
      | false => exact result?_word ['a', 'l', 's', 'e'] rest
  | number n =>
      rw [numeralBytes_tail, firstByte]
      split
      · exact result?_skipNegativeNumber n stops
      · rw [skipScalar_digitByte]
        exact result?_skipNumberFrom n stops
  | string l =>
      change skipString.result? (Literal.bytes l ++ [byte '"'] ++ rest) = _
      rw [List.append_assoc]
      exact congrArg Except.toOption (skipStringFrom_literal l rest)
  | array => exact scalar.elim
  | object => exact scalar.elim

theorem spelled_skipScalar {b : UInt8} {s r : Bytes} {u : Unit}
    (ok : (skipScalar b).run s = .ok (u, r)) : ∃ v : Spelling, b :: s = v.bytes ++ r := by
  unfold skipScalar at ok
  split at ok
  · rename_i same
    exact ⟨.null, by rw [same, spelled_word ok]; rfl⟩
  split at ok
  · rename_i same
    exact ⟨.bool true, by rw [same, spelled_word ok]; rfl⟩
  split at ok
  · rename_i same
    exact ⟨.bool false, by rw [same, spelled_word ok]; rfl⟩
  split at ok
  · rename_i quote
    obtain ⟨l, rfl⟩ := spelled_skipStringFrom ok
    refine ⟨.string l, ?_⟩
    rw [quote, Spelling.bytes, List.cons_append, List.append_assoc]
    rfl
  split at ok
  · rename_i minus
    obtain ⟨n, eq⟩ := spelled_skipNegativeNumber ok
    exact ⟨.number n, by rw [minus, eq, Spelling.bytes]⟩
  split at ok
  · rename_i digit
    obtain ⟨first, rfl, rfl⟩ := exists_digit digit
    obtain ⟨n, eq⟩ := (spelled_skipNumberFrom ok).positive
    exact ⟨.number n, by rw [eq, Spelling.bytes]⟩
  · cases ok

theorem opened?_scalar {v : Spelling} (scalar : Spelling.IsScalar v) :
    Bracket.opened? (firstByte v) = none := by
  have array : firstByte v ≠ byte '[' := by
    intro first
    obtain ⟨inside, items, rfl⟩ := eq_array_of_firstByte first
    exact scalar
  have object : firstByte v ≠ byte '\x7b' := by
    intro first
    obtain ⟨inside, members, rfl⟩ := eq_object_of_firstByte first
    exact scalar
  rw [Bracket.opened?, if_neg array, if_neg object]

section
variable (outer : List Bracket) (gap : Gap) (rest : Bytes)

theorem result?_skipKey (key : Literal) (beforeColon afterColon : Gap) :
    skipKey.result? (Gap.bytes gap ++ byte '"' :: labelled key beforeColon afterColon rest) =
      some ((), Gap.bytes afterColon ++ rest) := by
  have taken : skipString.result? (labelled key beforeColon afterColon rest) =
      some ((), Gap.bytes beforeColon ++ byte ':' :: (Gap.bytes afterColon ++ rest)) :=
    congrArg Except.toOption (skipStringFrom_literal key _)
  rw [skipKey, result?_token (by decide), if_pos rfl, result?_bind_some taken]
  exact result?_colon beforeColon _

theorem spelled_skipKey {s r : Bytes} {u : Unit} (read : skipKey.run s = .ok (u, r)) :
    ∃ gap key beforeColon, s = Gap.bytes gap ++ byte '"' :: labelled key beforeColon [] r := by
  obtain ⟨gap, b, t, rfl, -, ok⟩ := spelled_token read
  split at ok
  · rename_i quote
    subst quote
    obtain ⟨_, t', taken, separated⟩ := run_bind_ok.1 ok
    obtain ⟨key, rfl⟩ := spelled_skipStringFrom taken
    obtain ⟨beforeColon, rfl⟩ := spelled_colon separated
    exact ⟨gap, key, beforeColon, rfl⟩
  · cases ok

theorem skipStep_scalar {v : Spelling} (scalar : Spelling.IsScalar v) {rest : Bytes}
    (stops : Stops rest) :
    (skipStep (.value outer)).result? (Gap.bytes gap ++ (v.bytes ++ rest)) =
      some (Due.after outer, rest) := by
  rw [skipStep, result?_token_bytes]
  simp only [opened?_scalar scalar, result?_bind_some (result?_skipScalar scalar stops)]
  rfl

theorem skipStep_array :
    (skipStep (.value outer)).result? (Gap.bytes gap ++ byte '[' :: rest) =
      some (some (.first .array outer), rest) := by
  rw [skipStep, result?_token (by decide)]
  rfl

theorem skipStep_object :
    (skipStep (.value outer)).result? (Gap.bytes gap ++ byte '\x7b' :: rest) =
      some (some (.first .object outer), rest) := by
  rw [skipStep, result?_token (by decide)]
  rfl

theorem skipStep_closing (bracket : Bracket) :
    (skipStep (.next bracket outer)).result? (Gap.bytes gap ++ bracket.closing :: rest) =
      some (Due.after outer, rest) := by
  have visible : isBlank bracket.closing = false := by cases bracket <;> rfl
  rw [skipStep, result?_token visible, if_pos rfl]
  rfl

theorem skipStep_empty (bracket : Bracket) :
    (skipStep (.first bracket outer)).result? (Gap.bytes gap ++ bracket.closing :: rest) =
      some (Due.after outer, rest) := by
  have visible : isBlank bracket.closing = false := by cases bracket <;> rfl
  rw [skipStep, result?_bind_some (result?_blanks visible gap rest), result?_peek?_bind]
  simp only [List.head?_cons, ↓reduceIte]
  rfl

theorem skipStep_item (v : Spelling) :
    (skipStep (.first .array outer)).result? (Gap.bytes gap ++ (v.bytes ++ rest)) =
      some (some (.value (.array :: outer)), v.bytes ++ rest) := by
  obtain ⟨s, eq⟩ := exists_bytes_eq_cons v
  obtain ⟨visible, other⟩ := firstByte_visible v
  rw [eq, List.cons_append, skipStep, result?_bind_some (result?_blanks visible gap _),
    result?_peek?_bind]
  have inner : firstByte v ≠ Bracket.array.closing := other
  simp only [List.head?_cons, if_neg inner]
  rfl

theorem skipStep_itemComma :
    (skipStep (.next .array outer)).result? (Gap.bytes gap ++ byte ',' :: rest) =
      some (some (.value (.array :: outer)), rest) := by
  rw [skipStep, result?_token (by decide), if_neg (by decide), if_pos rfl]
  rfl

theorem skipToValue_object (key : Literal) (beforeColon afterColon : Gap) :
    (skipToValue .object outer).result?
        (Gap.bytes gap ++ byte '"' :: labelled key beforeColon afterColon rest) =
      some (some (.value (.object :: outer)), Gap.bytes afterColon ++ rest) := by
  rw [skipToValue, skipLabel, result?_bind_some (result?_skipKey gap rest key beforeColon afterColon)]
  rfl

theorem skipStep_member (key : Literal) (beforeColon afterColon : Gap) :
    (skipStep (.first .object outer)).result?
        (Gap.bytes gap ++ byte '"' :: labelled key beforeColon afterColon rest) =
      some (some (.value (.object :: outer)), Gap.bytes afterColon ++ rest) := by
  have inner : byte '"' ≠ Bracket.object.closing := by decide
  rw [skipStep, result?_bind_some (result?_blanks (by decide) gap _), result?_peek?_bind]
  simp only [List.head?_cons, if_neg inner]
  exact skipToValue_object outer [] rest key beforeColon afterColon

theorem skipStep_memberComma (gap' : Gap) (key : Literal) (beforeColon afterColon : Gap) :
    (skipStep (.next .object outer)).result? (Gap.bytes gap ++ byte ',' ::
        (Gap.bytes gap' ++ byte '"' :: labelled key beforeColon afterColon rest)) =
      some (some (.value (.object :: outer)), Gap.bytes afterColon ++ rest) := by
  rw [skipStep, result?_token (by decide), if_neg (by decide), if_pos rfl]
  exact skipToValue_object outer gap' rest key beforeColon afterColon

end

def skipRest : Option Due → Bytes → Except Fault (Unit × Bytes)
  | none, s => .ok ((), s)
  | some due, s => skipFrom due s

theorem skipFrom_of_step {due : Due} {next : Option Due} {s t : Bytes}
    (step : (skipStep due).result? s = some (next, t)) : skipFrom due s = skipRest next t := by
  have run := result?_eq_some.1 step
  rw [skipFrom]
  split
  all_goals
    rename_i other
    rw [other] at run
    cases run
  · rfl
  · rfl

mutual

theorem skipFrom_value : ∀ (v : Spelling) (outer : List Bracket) (gap : Gap) {rest : Bytes},
    Stops rest →
      skipFrom (.value outer) (Gap.bytes gap ++ (v.bytes ++ rest)) = skipRest (Due.after outer) rest
  | .null, outer, gap, _, stops => skipFrom_of_step (skipStep_scalar outer gap (by trivial) stops)
  | .bool _, outer, gap, _, stops => skipFrom_of_step (skipStep_scalar outer gap (by trivial) stops)
  | .number _, outer, gap, _, stops => skipFrom_of_step (skipStep_scalar outer gap (by trivial) stops)
  | .string _, outer, gap, _, stops => skipFrom_of_step (skipStep_scalar outer gap (by trivial) stops)
  | .array inside [], outer, gap, rest, _ => by
      rw [Spelling.bytes, List.cons_append, List.append_assoc, skipFrom_of_step (skipStep_array ..)]
      exact skipFrom_of_step (skipStep_empty outer inside rest .array)
  | .array inside (⟨before, v, after⟩ :: items), outer, gap, rest, _ => by
      rw [arrayBytes_cons, skipFrom_of_step (skipStep_array ..)]
      refine (skipFrom_of_step (skipStep_item outer _ _ v)).trans ?_
      exact (skipFrom_value v (.array :: outer) [] (stops_gap after (stops_itemBytes items rest))).trans
        (skipFrom_items items outer after rest)
  | .object inside [], outer, gap, rest, _ => by
      rw [Spelling.bytes, List.cons_append, List.append_assoc, skipFrom_of_step (skipStep_object ..)]
      exact skipFrom_of_step (skipStep_empty outer inside rest .object)
  | .object inside (⟨before, key, beforeColon, afterColon, v, after⟩ :: members), outer, gap, rest, _ => by
      rw [objectBytes_cons, skipFrom_of_step (skipStep_object ..)]
      refine (skipFrom_of_step (skipStep_member outer _ _ key beforeColon afterColon)).trans ?_
      exact (skipFrom_value v (.object :: outer) afterColon
        (stops_gap after (stops_memberBytes members rest))).trans
          (skipFrom_members members outer after rest)

theorem skipFrom_items : ∀ (items : List (ItemOf Spelling)) (outer : List Bracket) (gap : Gap)
    (rest : Bytes), skipFrom (.next .array outer) (Gap.bytes gap ++ (Spelling.itemBytes items ++ rest)) =
      skipRest (Due.after outer) rest
  | [], outer, gap, rest => skipFrom_of_step (skipStep_closing outer gap rest .array)
  | ⟨before, v, after⟩ :: items, outer, gap, rest => by
      rw [itemBytes_cons, skipFrom_of_step (skipStep_itemComma outer gap _)]
      exact (skipFrom_value v (.array :: outer) before
        (stops_gap after (stops_itemBytes items rest))).trans
          (skipFrom_items items outer after rest)

theorem skipFrom_members : ∀ (members : List (MemberOf Spelling)) (outer : List Bracket) (gap : Gap)
    (rest : Bytes),
    skipFrom (.next .object outer) (Gap.bytes gap ++ (Spelling.memberBytes members ++ rest)) =
      skipRest (Due.after outer) rest
  | [], outer, gap, rest => skipFrom_of_step (skipStep_closing outer gap rest .object)
  | ⟨before, key, beforeColon, afterColon, v, after⟩ :: members, outer, gap, rest => by
      rw [memberBytes_cons, skipFrom_of_step (skipStep_memberComma outer gap _ before _ _ _)]
      exact (skipFrom_value v (.object :: outer) afterColon
        (stops_gap after (stops_memberBytes members rest))).trans
          (skipFrom_members members outer after rest)

end

/-- The text takes a value, or further items or members and the end of a bracket, and then what the
brackets around it demand, up to a rest. -/
def Closes : List Bracket → Bytes → Bytes → Prop
  | [], s, r => s = r
  | .array :: outer, s, r => ∃ gap items t,
      s = Gap.bytes gap ++ (Spelling.itemBytes items ++ t) ∧ Closes outer t r
  | .object :: outer, s, r => ∃ gap members t,
      s = Gap.bytes gap ++ (Spelling.memberBytes members ++ t) ∧ Closes outer t r

def Meets : Due → Bytes → Bytes → Prop
  | .value outer, s, r => ∃ gap v t,
      s = Gap.bytes gap ++ (Spelling.bytes v ++ t) ∧ Closes outer t r
  | .first .array outer, s, r => ∃ inside items t,
      byte '[' :: s = (Spelling.array inside items).bytes ++ t ∧ Closes outer t r
  | .first .object outer, s, r => ∃ inside members t,
      byte '\x7b' :: s = (Spelling.object inside members).bytes ++ t ∧ Closes outer t r
  | .next bracket outer, s, r => Closes (bracket :: outer) s r

def MeetsNext : Option Due → Bytes → Bytes → Prop
  | none, s, r => s = r
  | some due, s, r => Meets due s r

section
variable {outer : List Bracket} {next : Option Due} {s t r : Bytes}

theorem closes_of_after (meets : MeetsNext (Due.after outer) s r) : Closes outer s r := by
  cases outer with
  | nil => exact meets
  | cons bracket outer => exact meets

theorem spelled_value_step (meets : MeetsNext next t r)
    (step : (skipStep (.value outer)).run s = .ok (next, t)) : Meets (.value outer) s r := by
  obtain ⟨gap, b, u, rfl, -, ok⟩ := spelled_token step
  split at ok
  · rename_i bracket opened
    obtain ⟨rfl, rfl⟩ := run_pure_ok.1 ok
    unfold Bracket.opened? at opened
    split at opened
    · rename_i same
      cases opened
      obtain ⟨inside, items, t, eq, closes⟩ := meets
      exact ⟨gap, .array inside items, t, by rw [same, eq], closes⟩
    split at opened
    · rename_i same
      cases opened
      obtain ⟨inside, members, t, eq, closes⟩ := meets
      exact ⟨gap, .object inside members, t, by rw [same, eq], closes⟩
    · cases opened
  · obtain ⟨_, t', taken, ok⟩ := run_bind_ok.1 ok
    obtain ⟨rfl, rfl⟩ := run_pure_ok.1 ok
    obtain ⟨v, eq⟩ := spelled_skipScalar taken
    exact ⟨gap, v, t', by rw [eq], closes_of_after meets⟩

theorem spelled_first_step {bracket : Bracket} (meets : MeetsNext next t r)
    (step : (skipStep (.first bracket outer)).run s = .ok (next, t)) :
    Meets (.first bracket outer) s r := by
  obtain ⟨_, u, skipped, ok⟩ := run_bind_ok.1 step
  obtain ⟨inside, eq⟩ := exists_gap s
  obtain rfl : skipBlanks s = u := (Prod.mk.inj (Except.ok.inj skipped)).2
  rw [run_peek?_bind] at ok
  split at ok
  · cases ok
  rename_i b head
  obtain ⟨u, same⟩ := List.head?_eq_some_iff.1 head
  rw [same] at eq ok
  split at ok
  · rename_i closing
    rw [run_next?_bind, List.tail_cons] at ok
    obtain ⟨rfl, rfl⟩ := run_pure_ok.1 ok
    cases bracket with
    | array =>
        refine ⟨inside, [], u, ?_, closes_of_after meets⟩
        rw [eq, closing, Spelling.bytes, List.cons_append, List.append_assoc]
        rfl
    | object =>
        refine ⟨inside, [], u, ?_, closes_of_after meets⟩
        rw [eq, closing, Spelling.bytes, List.cons_append, List.append_assoc]
        rfl
  · obtain ⟨_, t', label, ok⟩ := run_bind_ok.1 ok
    obtain ⟨rfl, rfl⟩ := run_pure_ok.1 ok
    obtain ⟨gap, v, u, rfl, closes⟩ := meets
    cases bracket with
    | array =>
        obtain ⟨after, items, u, rfl, closes⟩ := closes
        refine ⟨inside, ⟨gap, v, after⟩ :: items, u, ?_, closes⟩
        rw [eq, (run_pure_ok.1 label).2, arrayBytes_cons, gap_append, List.append_assoc]
    | object =>
        obtain ⟨before, key, beforeColon, label⟩ := spelled_skipKey label
        obtain ⟨after, members, u, rfl, closes⟩ := closes
        refine ⟨inside, ⟨before, key, beforeColon, gap, v, after⟩ :: members, u, ?_, closes⟩
        rw [eq, label, objectBytes_cons, gap_append, List.append_assoc]
        rfl

theorem spelled_next_step {bracket : Bracket} (meets : MeetsNext next t r)
    (step : (skipStep (.next bracket outer)).run s = .ok (next, t)) :
    Meets (.next bracket outer) s r := by
  obtain ⟨gap, b, u, rfl, -, ok⟩ := spelled_token step
  split at ok
  · rename_i closing
    obtain ⟨rfl, rfl⟩ := run_pure_ok.1 ok
    subst closing
    cases bracket with
    | array => exact ⟨gap, [], u, rfl, closes_of_after meets⟩
    | object => exact ⟨gap, [], u, rfl, closes_of_after meets⟩
  split at ok
  · rename_i comma
    subst comma
    obtain ⟨_, t', label, ok⟩ := run_bind_ok.1 ok
    obtain ⟨rfl, rfl⟩ := run_pure_ok.1 ok
    obtain ⟨before, v, u', rfl, closes⟩ := meets
    cases bracket with
    | array =>
        obtain ⟨after, items, u'', rfl, closes⟩ := closes
        refine ⟨gap, ⟨before, v, after⟩ :: items, u'', ?_, closes⟩
        rw [itemBytes_cons, (run_pure_ok.1 label).2]
    | object =>
        obtain ⟨before', key, beforeColon, rfl⟩ := spelled_skipKey label
        obtain ⟨after, members, u'', rfl, closes⟩ := closes
        exact ⟨gap, ⟨before', key, beforeColon, before, v, after⟩ :: members, u'',
          by rw [memberBytes_cons]; rfl, closes⟩
  · cases ok

theorem spelled_step {due : Due} (meets : MeetsNext next t r)
    (step : (skipStep due).run s = .ok (next, t)) : Meets due s r := by
  cases due with
  | value outer => exact spelled_value_step meets step
  | first bracket outer => exact spelled_first_step meets step
  | next bracket outer => exact spelled_next_step meets step

end

theorem spelled_skipFrom {due : Due} {s r : Bytes} {u : Unit}
    (ok : skipFrom due s = .ok (u, r)) : Meets due s r := by
  -- The text is put together from its end: what a step left due is known to be met.
  fun_induction skipFrom due s with
  | case1 => cases ok
  | case2 due s t step =>
      cases ok
      have met : MeetsNext none r r := rfl
      exact spelled_step met step
  | case3 due s due' t step ih =>
      have met : MeetsNext (some due') t r := ih ok
      exact spelled_step met step

theorem skipValue_denotes : Denotes skipValue fun _ => some () where
  reads gap v rest stops := congrArg Except.toOption (skipFrom_value v [] gap stops)
  spelled s u r ok := by
    obtain ⟨gap, v, t, eq, rfl⟩ := spelled_skipFrom ok
    exact ⟨gap, v, eq⟩

end LatencyGate.Json.Reader
