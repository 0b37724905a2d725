import Mathlib
import LatencyGate.Json.Reader.Record
import LatencyGate.Proofs.Json.Values

namespace LatencyGate.Json.Reader

variable {α ρ : Type}

theorem optional_null (inner : Reader α) : Reads (optional inner) Json.null.chars none :=
  fun _ _ => rfl

theorem optional_some {inner : Reader α} {v : Json} {a : α} (integer : ∀ x, v ≠ .number (.float x))
    (present : v ≠ .null) (reads : Reads inner v.chars a) :
    Reads (optional inner) v.chars (some a) := by
  intro rest ends
  obtain ⟨b, s, eq, visible, -, null⟩ := encode_chars_cons integer
  have read := reads rest ends
  have other : some b ≠ some (byte 'n') := fun same => present (null (Option.some.inj same))
  have peeked : (peek? : Reader (Option UInt8)).run (b :: (s ++ rest)) =
    .ok (some b, b :: (s ++ rest)) := rfl
  have skipped : blanks.run (b :: (s ++ rest)) = .ok ((), b :: (s ++ rest)) :=
    congrArg (fun rest => Except.ok ((), rest)) (skipBlanks_cons visible _)
  rw [eq, List.cons_append] at read ⊢
  rw [optional, run_bind, skipped]
  dsimp only
  rw [run_bind, peeked]
  dsimp only
  rw [if_neg other, run_bind, read]
  rfl

theorem eq_none_of_optional_null {inner : Reader α} {a : Option α}
    (reads : Reads (optional inner) Json.null.chars a) : a = none := by
  have read := reads [] ends_nil
  rw [optional_null inner [] ends_nil] at read
  cases read
  rfl

theorem text_reads (s : String) : Reads text (Json.string s).chars s := by
  intro rest _
  change text.run (Utf8.encode (quoted s) ++ rest) = _
  rw [encode_quoted, text, run_token_cons (by decide), if_pos rfl]
  exact run_string s rest

theorem unsigned_reads (n : UInt64) : Reads unsigned (Json.number (.natural n)).chars n := by
  intro rest ends
  obtain ⟨c, s, eq, digit, read⟩ := encode_digits false n.toNat_lt ends
  have unsigned_digit : byte c ≠ byte '-' := by
    have member := mem_digitChars digit
    fin_cases member <;> decide
  change unsigned.run (Utf8.encode (digits n.toNat) ++ rest) = _
  rw [eq, unsigned, run_token_cons (not_blank_digit digit), if_neg unsigned_digit]
  simp only [digit?_byte digit]
  rw [run_bind, read]
  simp only [integer, Bool.false_eq_true, ↓reduceIte, natural, run_pure, UInt64.ofNat_toNat]

theorem recordMember_reads {fields : List (RecordField ρ)} {field : RecordField ρ} {k : String}
    {v : Json} {record next : ρ} {given : List String}
    (found : fields.find? (·.name == k) = some field) (fresh : k ∉ given)
    (reads : Reads (field.read record) v.chars next) :
    Reads (recordMember fields (record, given)) (memberText k v) (next, k :: given) := by
  intro rest ends
  have read := (reads.map fun next => (next, k :: given)) rest ends
  have absent : ¬given.contains k = true := by
    rw [List.contains_iff_mem]
    exact fresh
  rw [encode_memberText, recordMember, run_bind, run_string]
  simp only [found]
  rw [if_neg absent, run_bind, run_colon]
  exact read

variable {fields : List (RecordField ρ)} {members : List (String × Json)} (view : List String → ρ)

/-- Members that belong to different fields, where `view given` is the record with the given ones. -/
theorem recordMembers_fold
    (reads : ∀ member ∈ members, ∃ field, fields.find? (·.name == member.1) = some field ∧
      ∀ given, Reads (field.read (view given)) member.2.chars (view (member.1 :: given)))
    (distinct : (members.map Prod.fst).Nodup) (given : List String)
    (fresh : ∀ k ∈ given, k ∉ members.map Prod.fst) :
    Folds (recordMember fields) (view given, given) members
      (view ((members.map Prod.fst).reverse ++ given), (members.map Prod.fst).reverse ++ given) := by
  induction members generalizing given with
  | nil => exact .nil _
  | cons member members ih =>
      obtain ⟨k, v⟩ := member
      obtain ⟨new, distinct⟩ := List.nodup_cons.1 distinct
      obtain ⟨field, found, read⟩ := reads (k, v) List.mem_cons_self
      have old : k ∉ given := fun before => fresh k before List.mem_cons_self
      have fresh' : ∀ l ∈ k :: given, l ∉ members.map Prod.fst := by
        intro l before
        rcases List.mem_cons.1 before with rfl | before
        · exact new
        · exact fun after => fresh l before (List.mem_cons_of_mem _ after)
      have others := ih (fun member mem => reads member (List.mem_cons_of_mem _ mem)) distinct
        (k :: given) fresh'
      rw [List.map_cons, List.reverse_cons, List.append_assoc]
      exact .cons (recordMember_reads found old (read given)) others

theorem record_reads
    (reads : ∀ member ∈ members, ∃ field, fields.find? (·.name == member.1) = some field ∧
      ∀ given, Reads (field.read (view given)) member.2.chars (view (member.1 :: given)))
    (distinct : (members.map Prod.fst).Nodup) (expected : String) :
    Reads (record expected fields (view [])) (Json.object members).chars
      (view (members.map Prod.fst).reverse) := by
  have folds := recordMembers_fold view reads distinct [] (by simp)
  rw [List.append_nil] at folds
  intro rest _
  obtain ⟨s, eq, read⟩ := run_fold_members folds rest
  rw [eq, record, run_token_cons (by decide), if_pos rfl, recordObject, run_bind, read]
  rfl

end LatencyGate.Json.Reader
