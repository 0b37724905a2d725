import Mathlib
import LatencyGate.Json.Reader.List
import LatencyGate.Proofs.Json.Reading.Strings

namespace LatencyGate.Json.Reader

variable {σ : Type}

def leading : Bool → Gap → Bytes → Bytes
  | true, gap, s => Gap.bytes gap ++ s
  | false, gap, s => Gap.bytes gap ++ byte ',' :: s

section
variable (first : Bool) (gap : Gap) (rest : Bytes)

theorem result?_nextItem_end :
    (nextItem first).result? (Gap.bytes gap ++ byte ']' :: rest) = some (false, byte ']' :: rest) := by
  simp only [result?, nextItem, skipBlanks_visible (b := byte ']') rfl]
  rfl

theorem result?_nextItem_visible (gap' : Gap) {b : UInt8} (visible : isBlank b = false)
    (other : b ≠ byte ']') :
    (nextItem first).result? (leading first gap (Gap.bytes gap' ++ b :: rest)) =
      some (true, b :: rest) := by
  cases first with
  | true =>
      rw [leading, ← List.append_assoc, ← gap_append]
      simp only [result?, nextItem, skipBlanks_visible visible, if_neg other]
      rfl
  | false =>
      have comma : byte ',' ≠ byte ']' := by decide
      simp only [leading, result?, nextItem, skipBlanks_visible (b := byte ',') rfl, if_neg comma,
        ↓reduceIte, Bool.false_eq_true, skipBlanks_visible visible, if_neg other]
      rfl

theorem result?_nextItem_value (gap' : Gap) (v : Spelling) :
    (nextItem first).result? (leading first gap (Gap.bytes gap' ++ (v.bytes ++ rest))) =
      some (true, v.bytes ++ rest) := by
  obtain ⟨s, eq⟩ := exists_bytes_eq_cons v
  obtain ⟨visible, other⟩ := firstByte_visible v
  rw [eq, List.cons_append]
  exact result?_nextItem_visible first gap _ gap' visible other

theorem result?_nextItem_first (v : Spelling) :
    (nextItem true).result? (Gap.bytes gap ++ (v.bytes ++ rest)) = some (true, v.bytes ++ rest) :=
  result?_nextItem_value true [] rest gap v

theorem result?_nextItem_comma (gap' : Gap) (v : Spelling) :
    (nextItem false).result? (Gap.bytes gap ++ byte ',' :: (Gap.bytes gap' ++ (v.bytes ++ rest))) =
      some (true, v.bytes ++ rest) :=
  result?_nextItem_value false gap rest gap' v

theorem result?_nextKey_end :
    (nextKey first).result? (Gap.bytes gap ++ byte '\x7d' :: rest) =
      some (false, byte '\x7d' :: rest) := by
  simp only [result?, nextKey, skipBlanks_visible (b := byte '\x7d') rfl]
  rfl

theorem result?_nextKey_first :
    (nextKey true).result? (Gap.bytes gap ++ byte '"' :: rest) = some (true, rest) := by
  simp only [result?, nextKey, skipBlanks_visible (b := byte '"') rfl]
  rfl

theorem result?_nextKey_comma (gap' : Gap) :
    (nextKey false).result? (Gap.bytes gap ++ byte ',' :: (Gap.bytes gap' ++ byte '"' :: rest)) =
      some (true, rest) := by
  have comma : byte ',' ≠ byte '\x7d' := by decide
  simp only [result?, nextKey, skipBlanks_visible (b := byte ',') rfl, if_neg comma, ↓reduceIte,
    Bool.false_eq_true, skipBlanks_visible (b := byte '"') rfl]
  rfl

theorem result?_nextKey_leading (gap' : Gap) :
    (nextKey first).result? (leading first gap (Gap.bytes gap' ++ byte '"' :: rest)) =
      some (true, rest) := by
  cases first with
  | true =>
      rw [leading, ← List.append_assoc, ← gap_append]
      exact result?_nextKey_first _ rest
  | false => exact result?_nextKey_comma gap rest gap'

theorem result?_colon :
    colon.result? (Gap.bytes gap ++ byte ':' :: rest) = some ((), rest) :=
  result?_token rfl gap rest

end

section
variable {s r : Bytes}

def Separates (lead : Bytes) : Bool → Bytes → Bytes → Prop
  | true, s, r => ∃ gap, s = Gap.bytes gap ++ (lead ++ r)
  | false, s, r => ∃ gap gap', s = Gap.bytes gap ++ byte ',' :: (Gap.bytes gap' ++ (lead ++ r))

theorem spelled_nextItem {first more : Bool} (ok : (nextItem first).run s = .ok (more, r)) :
    (more = false ∧ ∃ gap t, r = byte ']' :: t ∧ s = Gap.bytes gap ++ r) ∨
      (more = true ∧ Separates [] first s r) := by
  unfold nextItem at ok
  dsimp only at ok
  split at ok
  · cases ok
  rename_i b t skipped
  obtain ⟨-, gap, rfl⟩ := exists_gap_of_skipBlanks skipped
  split at ok
  · rename_i closing
    subst closing
    cases ok
    exact .inl ⟨rfl, gap, t, rfl, rfl⟩
  split at ok
  · rename_i opening
    subst opening
    cases ok
    exact .inr ⟨rfl, gap, rfl⟩
  rename_i later
  obtain rfl := Bool.eq_false_iff.2 later
  split at ok
  · rename_i comma
    subst comma
    split at ok
    · cases ok
    rename_i c u skipped'
    obtain ⟨-, gap', rfl⟩ := exists_gap_of_skipBlanks skipped'
    split at ok
    · cases ok
    · cases ok
      exact .inr ⟨rfl, gap, gap', rfl⟩
  · cases ok

theorem spelled_nextKey {first more : Bool} (ok : (nextKey first).run s = .ok (more, r)) :
    (more = false ∧ ∃ gap t, r = byte '\x7d' :: t ∧ s = Gap.bytes gap ++ r) ∨
      (more = true ∧ Separates [byte '"'] first s r) := by
  unfold nextKey at ok
  dsimp only at ok
  split at ok
  · cases ok
  rename_i b t skipped
  obtain ⟨-, gap, rfl⟩ := exists_gap_of_skipBlanks skipped
  split at ok
  · rename_i closing
    subst closing
    cases ok
    exact .inl ⟨rfl, gap, t, rfl, rfl⟩
  split at ok
  · rename_i opening
    subst opening
    split at ok
    · rename_i quote
      subst quote
      cases ok
      exact .inr ⟨rfl, gap, rfl⟩
    · cases ok
  rename_i later
  obtain rfl := Bool.eq_false_iff.2 later
  split at ok
  · rename_i comma
    subst comma
    split at ok
    · cases ok
    rename_i c u skipped'
    obtain ⟨-, gap', rfl⟩ := exists_gap_of_skipBlanks skipped'
    split at ok
    · rename_i quote
      subst quote
      cases ok
      exact .inr ⟨rfl, gap, gap', rfl⟩
    split at ok <;> cases ok
  · cases ok

theorem spelled_colon {u : Unit} (read : colon.run s = .ok (u, r)) :
    ∃ gap, s = Gap.bytes gap ++ byte ':' :: r := by
  obtain ⟨gap, b, t, rfl, -, ok⟩ := spelled_token read
  split at ok
  · rename_i same
    subst same
    obtain ⟨-, rfl⟩ := run_pure_ok.1 ok
    exact ⟨gap, rfl⟩
  · cases ok

end

theorem itemBytes_cons (before : Gap) (v : Spelling) (after : Gap) (items : List Spelling.Item)
    (rest : Bytes) :
    Spelling.itemBytes (⟨before, v, after⟩ :: items) ++ rest =
      byte ',' :: (Gap.bytes before ++
        (v.bytes ++ (Gap.bytes after ++ (Spelling.itemBytes items ++ rest)))) := by
  simp only [Spelling.itemBytes, List.cons_append, List.append_assoc]

theorem arrayBytes_cons (inside before : Gap) (v : Spelling) (after : Gap)
    (items : List Spelling.Item) (rest : Bytes) :
    (Spelling.array inside (⟨before, v, after⟩ :: items)).bytes ++ rest =
      byte '[' :: (Gap.bytes (inside ++ before) ++
        (v.bytes ++ (Gap.bytes after ++ (Spelling.itemBytes items ++ rest)))) := by
  simp only [Spelling.bytes, List.cons_append, List.append_assoc, gap_append]

section
variable {item : σ → Reader σ} {sense : σ → Spelling → Option σ}

theorem foldFrom_itemBytes (denotes : ∀ state, Denotes (item state) (sense state)) (gap : Gap)
    (items : List Spelling.Item) (state : σ) (rest : Bytes) :
    (foldFrom itemSeparator item false state
        (Gap.bytes gap ++ (Spelling.itemBytes items ++ rest))).toOption =
      (items.foldlM (fun state i => sense state i.value) state).map (·, byte ']' :: rest) := by
  induction items generalizing gap state with
  | nil => exact foldFrom_of_end item state (result?_nextItem_end false gap rest)
  | cons i items ih =>
      obtain ⟨before, v, after⟩ := i
      rw [itemBytes_cons, foldFrom_of_more item state (result?_nextItem_comma gap _ before v),
        (denotes state).reads_here v (stops_gap after (stops_itemBytes items rest)),
        List.foldlM_cons]
      cases sense state v with
      | none => rfl
      | some next => exact ih after next

theorem result?_fold_items (denotes : ∀ state, Denotes (item state) (sense state)) (inside : Gap)
    (items : List Spelling.Item) (state : σ) (rest : Bytes) :
    (fold itemSeparator item state).result? ((Spelling.array inside items).bytes.tail ++ rest) =
      (items.foldlM (fun state i => sense state i.value) state).map (·, byte ']' :: rest) := by
  change (foldFrom itemSeparator item true state _).toOption = _
  cases items with
  | nil =>
      simp only [Spelling.bytes, List.tail_cons, List.append_assoc]
      exact foldFrom_of_end item state (result?_nextItem_end true inside rest)
  | cons i items =>
      obtain ⟨before, v, after⟩ := i
      simp only [Spelling.bytes, List.tail_cons, List.append_assoc]
      rw [← List.append_assoc (Gap.bytes inside), ← gap_append,
        foldFrom_of_more item state (result?_nextItem_first _ _ v),
        (denotes state).reads_here v (stops_gap after (stops_itemBytes items rest)),
        List.foldlM_cons]
      cases sense state v with
      | none => rfl
      | some next => exact foldFrom_itemBytes denotes after items next rest

theorem spelled_items (denotes : ∀ state, Denotes (item state) (sense state)) {state final : σ}
    {s r : Bytes} (ok : foldFrom itemSeparator item false state s = .ok (final, r)) :
    ∃ gap items t, r = byte ']' :: t ∧ s = Gap.bytes gap ++ (Spelling.itemBytes items ++ t) := by
  induction length : s.length using Nat.strong_induction_on generalizing s state with
  | _ n ih =>
  obtain ⟨ended, -⟩ | ⟨t, next, t', more, taken, others⟩ := foldFrom_ok ok
  · obtain ⟨-, gap, t, rfl, rfl⟩ | ⟨absurd, -⟩ := spelled_nextItem ended
    · exact ⟨gap, [], t, rfl, rfl⟩
    · cases absurd
  · have shorter : t'.length < n :=
      length ▸ Nat.lt_of_le_of_lt ((item state).rest_le taken) (itemSeparator.rest_lt more)
    obtain ⟨absurd, -⟩ | ⟨-, gap, before, rfl⟩ := spelled_nextItem more
    · cases absurd
    obtain ⟨before', v, rfl⟩ := (denotes state).spelled t next t' taken
    obtain ⟨after, items, u, rfl, rfl⟩ := ih t'.length shorter others rfl
    refine ⟨gap, ⟨before ++ before', v, after⟩ :: items, u, rfl, ?_⟩
    rw [itemBytes_cons, gap_append, List.append_assoc]
    rfl

theorem spelled_fold_items (denotes : ∀ state, Denotes (item state) (sense state)) {state final : σ}
    {s r : Bytes} (ok : (fold itemSeparator item state).run s = .ok (final, r)) :
    ∃ inside items t, r = byte ']' :: t ∧
      byte '[' :: s = (Spelling.array inside items).bytes ++ t := by
  obtain ⟨ended, -⟩ | ⟨t, next, t', more, taken, others⟩ := foldFrom_ok ok
  · obtain ⟨-, inside, t, rfl, rfl⟩ | ⟨absurd, -⟩ := spelled_nextItem ended
    · refine ⟨inside, [], t, rfl, ?_⟩
      simp only [Spelling.bytes, List.cons_append, List.append_assoc, List.nil_append]
    · cases absurd
  · obtain ⟨absurd, -⟩ | ⟨-, inside, rfl⟩ := spelled_nextItem more
    · cases absurd
    obtain ⟨before, v, rfl⟩ := (denotes state).spelled t next t' taken
    obtain ⟨after, items, u, rfl, rfl⟩ := spelled_items denotes others
    refine ⟨inside, ⟨before, v, after⟩ :: items, u, rfl, ?_⟩
    simp only [Spelling.bytes, List.cons_append, List.append_assoc, List.nil_append]

end

def labelled (key : Literal) (beforeColon afterColon : Gap) (s : Bytes) : Bytes :=
  Literal.bytes key ++ byte '"' :: (Gap.bytes beforeColon ++ byte ':' :: (Gap.bytes afterColon ++ s))

theorem memberBytes_cons (m : Spelling.Member) (members : List Spelling.Member) (rest : Bytes) :
    Spelling.memberBytes (m :: members) ++ rest =
      byte ',' :: (Gap.bytes m.before ++ byte '"' :: labelled m.key m.beforeColon m.afterColon
        (m.value.bytes ++ (Gap.bytes m.after ++ (Spelling.memberBytes members ++ rest)))) := by
  obtain ⟨before, key, beforeColon, afterColon, v, after⟩ := m
  simp only [Spelling.memberBytes, labelled, List.cons_append, List.append_assoc]

theorem objectBytes_cons (inside : Gap) (m : Spelling.Member) (members : List Spelling.Member)
    (rest : Bytes) :
    (Spelling.object inside (m :: members)).bytes ++ rest =
      byte '\x7b' :: (Gap.bytes (inside ++ m.before) ++ byte '"' ::
        labelled m.key m.beforeColon m.afterColon
          (m.value.bytes ++ (Gap.bytes m.after ++ (Spelling.memberBytes members ++ rest)))) := by
  obtain ⟨before, key, beforeColon, afterColon, v, after⟩ := m
  simp only [Spelling.bytes, labelled, List.cons_append, List.append_assoc, gap_append]

/-- What is done at each member, behind the opening quote of its key, makes `sense` of the key and
the value, and takes nothing but keys and values. -/
structure DenotesMembers (item : σ → Reader σ) (sense : σ → Literal → Spelling → Option σ) :
    Prop where
  reads : ∀ state key beforeColon afterColon v rest, Stops rest →
    (item state).result? (labelled key beforeColon afterColon (v.bytes ++ rest)) =
      (sense state key v).map (·, rest)
  spelled : ∀ state s next r, (item state).run s = .ok (next, r) →
    ∃ key beforeColon afterColon v, s = labelled key beforeColon afterColon (Spelling.bytes v ++ r)

section
variable {item : σ → Reader σ} {sense : σ → Literal → Spelling → Option σ}

theorem foldFrom_memberBytes (denotes : DenotesMembers item sense) (gap : Gap)
    (members : List Spelling.Member) (state : σ) (rest : Bytes) :
    (foldFrom memberSeparator item false state
        (Gap.bytes gap ++ (Spelling.memberBytes members ++ rest))).toOption =
      (members.foldlM (fun state m => sense state m.key m.value) state).map
        (·, byte '\x7d' :: rest) := by
  induction members generalizing gap state with
  | nil => exact foldFrom_of_end item state (result?_nextKey_end false gap rest)
  | cons m members ih =>
      rw [memberBytes_cons, foldFrom_of_more item state (result?_nextKey_comma gap _ m.before),
        denotes.reads state _ _ _ _ _ (stops_gap m.after (stops_memberBytes members rest)),
        List.foldlM_cons]
      cases sense state m.key m.value with
      | none => rfl
      | some next => exact ih m.after next

theorem result?_fold_members (denotes : DenotesMembers item sense) (inside : Gap)
    (members : List Spelling.Member) (state : σ) (rest : Bytes) :
    (fold memberSeparator item state).result? ((Spelling.object inside members).bytes.tail ++ rest) =
      (members.foldlM (fun state m => sense state m.key m.value) state).map
        (·, byte '\x7d' :: rest) := by
  change (foldFrom memberSeparator item true state _).toOption = _
  cases members with
  | nil =>
      simp only [Spelling.bytes, List.tail_cons, List.append_assoc]
      exact foldFrom_of_end item state (result?_nextKey_end true inside rest)
  | cons m members =>
      have tail := congrArg List.tail (objectBytes_cons inside m members rest)
      obtain ⟨s, eq⟩ := exists_bytes_eq_cons (.object inside (m :: members))
      rw [eq, List.cons_append, List.tail_cons, List.tail_cons] at tail
      rw [eq, List.tail_cons, tail, foldFrom_of_more item state (result?_nextKey_first _ _),
        denotes.reads state _ _ _ _ _ (stops_gap m.after (stops_memberBytes members rest)),
        List.foldlM_cons]
      cases sense state m.key m.value with
      | none => rfl
      | some next => exact foldFrom_memberBytes denotes m.after members next rest

theorem spelled_members (denotes : DenotesMembers item sense) {state final : σ} {s r : Bytes}
    (ok : foldFrom memberSeparator item false state s = .ok (final, r)) :
    ∃ gap members t, r = byte '\x7d' :: t ∧
      s = Gap.bytes gap ++ (Spelling.memberBytes members ++ t) := by
  induction length : s.length using Nat.strong_induction_on generalizing s state with
  | _ n ih =>
  obtain ⟨ended, -⟩ | ⟨t, next, t', more, taken, others⟩ := foldFrom_ok ok
  · obtain ⟨-, gap, t, rfl, rfl⟩ | ⟨absurd, -⟩ := spelled_nextKey ended
    · exact ⟨gap, [], t, rfl, rfl⟩
    · cases absurd
  · have shorter : t'.length < n :=
      length ▸ Nat.lt_of_le_of_lt ((item state).rest_le taken) (memberSeparator.rest_lt more)
    obtain ⟨absurd, -⟩ | ⟨-, gap, before, rfl⟩ := spelled_nextKey more
    · cases absurd
    obtain ⟨key, beforeColon, afterColon, v, rfl⟩ := denotes.spelled state t next t' taken
    obtain ⟨after, members, u, rfl, rfl⟩ := ih t'.length shorter others rfl
    refine ⟨gap, ⟨before, key, beforeColon, afterColon, v, after⟩ :: members, u, rfl, ?_⟩
    rw [memberBytes_cons]
    rfl

theorem spelled_fold_members (denotes : DenotesMembers item sense) {state final : σ} {s r : Bytes}
    (ok : (fold memberSeparator item state).run s = .ok (final, r)) :
    ∃ inside members t, r = byte '\x7d' :: t ∧
      byte '\x7b' :: s = (Spelling.object inside members).bytes ++ t := by
  obtain ⟨ended, -⟩ | ⟨t, next, t', more, taken, others⟩ := foldFrom_ok ok
  · obtain ⟨-, inside, t, rfl, rfl⟩ | ⟨absurd, -⟩ := spelled_nextKey ended
    · refine ⟨inside, [], t, rfl, ?_⟩
      simp only [Spelling.bytes, List.cons_append, List.append_assoc, List.nil_append]
    · cases absurd
  · obtain ⟨absurd, -⟩ | ⟨-, inside, rfl⟩ := spelled_nextKey more
    · cases absurd
    obtain ⟨key, beforeColon, afterColon, v, rfl⟩ := denotes.spelled state t next t' taken
    obtain ⟨after, members, u, rfl, rfl⟩ := spelled_members denotes others
    refine ⟨inside, ⟨[], key, beforeColon, afterColon, v, after⟩ :: members, u, rfl, ?_⟩
    rw [objectBytes_cons, List.append_nil]
    rfl

end

end LatencyGate.Json.Reader
