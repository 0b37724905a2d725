import Mathlib
import LatencyGate.Json.Reader.Record
import LatencyGate.Proofs.Json.Arrangement
import LatencyGate.Proofs.Json.Reading.Skipped

/-!
# Reading records

What a record is depends on the values that its fields are given only, not on the order of the
members. `RecordMeaning` ties the readers of the fields to a function that assembles the record
from those values; the reader of the record then denotes that function at `Spelling.fields?`, for
objects and for arrays.
-/

namespace LatencyGate.Json.Reader

open Spelling (keyed?_cons known_cons_of_mem known_cons_of_not_mem)

variable {ρ : Type}

structure FieldMeaning (ρ : Type) where
  field : RecordField ρ
  meaning : ρ → Spelling → Option ρ
  denotes : ∀ record, Denotes (field.read record) (meaning record)

structure RecordMeaning (ρ : Type) where
  fields : List (FieldMeaning ρ)
  distinct : (fields.map (·.field.name)).Nodup
  empty : ρ
  assemble : (String → Option Spelling) → Option ρ
  assemble_none : assemble (fun _ => none) = some empty
  assemble_congr : ∀ {given given' : String → Option Spelling},
    (∀ name ∈ fields.map (·.field.name), given name = given' name) →
      assemble given = assemble given'
  assemble_null : ∀ {given : String → Option Spelling}, ∀ m ∈ fields, given m.field.name = none →
    assemble (Function.update given m.field.name (some .null)) = assemble given
  assemble_update : ∀ {given : String → Option Spelling}, ∀ m ∈ fields, ∀ v,
    given m.field.name = none →
      assemble (Function.update given m.field.name (some v)) = (assemble given).bind (m.meaning · v)

namespace RecordMeaning

variable (m : RecordMeaning ρ)

def names : List String := m.fields.map (·.field.name)

theorem names_nodup : m.names.Nodup := m.distinct

def readers : List (RecordField ρ) := m.fields.map (·.field)

def value? (v : Spelling) : Option ρ := (Spelling.fields? m.names v).bind m.assemble

/-! ## Members -/

def step (state : ρ × List String) (key : Literal) (v : Spelling) : Option (ρ × List String) :=
  (Literal.text? key).bind fun k =>
    match m.fields.find? (·.field.name == k) with
    | none => some state
    | some f => if state.2.contains k then none else (f.meaning state.1 v).map (·, k :: state.2)

theorem find?_readers (k : String) :
    m.readers.find? (·.name == k) = (m.fields.find? (·.field.name == k)).map (·.field) :=
  List.find?_map

theorem result?_duplicate {α : Type} (name : String) (s : Bytes) :
    (duplicate name : Reader α).result? s = none := by
  rw [duplicate, result?_bind]
  change (Reader.result? _ _) = none
  rw [result?_peek?_bind]
  split <;> rfl

theorem result?_recordMember (state : ρ × List String) (key : Literal)
    (beforeColon afterColon : Gap) (v : Spelling) {rest : Bytes} (stops : Stops rest) :
    (recordMember m.readers state).result?
        (labelled key beforeColon afterColon (v.bytes ++ rest)) =
      (m.step state key v).map (·, rest) := by
  obtain ⟨record, given⟩ := state
  rw [recordMember, labelled, result?_bind, result?_string, step]
  cases Literal.text? key with
  | none => rfl
  | some k =>
      change Reader.result? _ (Gap.bytes beforeColon ++ byte ':' :: _) = _
      simp only [find?_readers, Option.bind_some]
      cases m.fields.find? (·.field.name == k) with
      | none =>
          simp only [Option.map_none]
          rw [result?_bind_some (result?_colon beforeColon _),
            result?_bind_some (skipValue_denotes.reads afterColon v rest stops)]
          rfl
      | some f =>
          simp only [Option.map_some]
          by_cases again : given.contains k
          · simp only [if_pos again, result?_duplicate]
            rfl
          · simp only [if_neg again]
            rw [result?_bind_some (result?_colon beforeColon _)]
            exact ((f.denotes record).map (·, k :: given)).reads afterColon v rest stops

theorem spelled_recordMember {state next : ρ × List String} {s r : Bytes}
    (read : (recordMember m.readers state).run s = .ok (next, r)) :
    ∃ key beforeColon afterColon, ∃ v : Spelling,
      s = labelled key beforeColon afterColon (v.bytes ++ r) := by
  obtain ⟨record, given⟩ := state
  obtain ⟨k, t, taken, ok⟩ := run_bind_ok.1 read
  obtain ⟨key, rfl⟩ := spelled_string taken
  simp only [find?_readers] at ok
  cases found : m.fields.find? (·.field.name == k) with
  | none =>
      simp only [found, Option.map_none] at ok
      obtain ⟨_, u, separated, skipped⟩ := run_bind_ok.1 ok
      obtain ⟨beforeColon, rfl⟩ := spelled_colon separated
      obtain ⟨_, u', taken, ended⟩ := run_bind_ok.1 skipped
      obtain ⟨afterColon, v, rfl⟩ := skipValue_denotes.spelled _ _ _ taken
      obtain ⟨-, rfl⟩ := run_pure_ok.1 ended
      exact ⟨key, beforeColon, afterColon, v, rfl⟩
  | some f =>
      simp only [found, Option.map_some] at ok
      split at ok
      · have refused := result?_of_ok ok
        rw [result?_duplicate] at refused
        cases refused
      · obtain ⟨_, u, separated, valued⟩ := run_bind_ok.1 ok
        obtain ⟨beforeColon, rfl⟩ := spelled_colon separated
        obtain ⟨afterColon, v, rfl⟩ :=
          ((f.denotes record).map (·, k :: given)).spelled _ _ _ valued
        exact ⟨key, beforeColon, afterColon, v, rfl⟩

theorem recordMember_denotes : DenotesMembers (recordMember m.readers) m.step where
  reads state key beforeColon afterColon v _ stops :=
    m.result?_recordMember state key beforeColon afterColon v stops
  spelled _ _ _ _ read := m.spelled_recordMember read

theorem field_of_find? {f : FieldMeaning ρ} {k : String}
    (found : m.fields.find? (·.field.name == k) = some f) : f ∈ m.fields ∧ f.field.name = k :=
  ⟨List.mem_of_find?_eq_some found, by simpa using List.find?_some found⟩

theorem not_mem_names {k : String} (found : m.fields.find? (·.field.name == k) = none) :
    k ∉ m.names := by
  intro member
  obtain ⟨f, mem, rfl⟩ := List.mem_map.1 member
  exact List.find?_eq_none.1 found f mem (beq_self_eq_true _)

/-- The record of the given values and of further members, where no field may have a member whose
name is among those that were `seen`. -/
def complete? (given : String → Option Spelling) (seen : List String)
    (keyed : List (String × Spelling)) : Option ρ :=
  if ((Spelling.known m.names keyed).map Prod.fst ++ seen).Nodup then
    m.assemble fun name => (given name).or (keyed.lookup name)
  else none

variable {m} {given : String → Option Spelling} {seen : List String} {k : String} (v : Spelling)
  (keyed : List (String × Spelling))

theorem complete?_unknown (other : k ∉ m.names) :
    m.complete? given seen ((k, v) :: keyed) = m.complete? given seen keyed := by
  have same : m.assemble (fun name => (given name).or (((k, v) :: keyed).lookup name)) =
      m.assemble fun name => (given name).or (keyed.lookup name) := by
    apply m.assemble_congr
    intro name member
    have here : name ≠ k := fun same => other (same ▸ member)
    rw [lookup_member, if_neg here]
  rw [complete?, complete?, known_cons_of_not_mem other, same]

theorem complete?_again (member : k ∈ m.names) (again : k ∈ seen) :
    m.complete? given seen ((k, v) :: keyed) = none := by
  rw [complete?, known_cons_of_mem member]
  apply if_neg
  intro nodup
  exact (List.nodup_cons.1 nodup).1 (List.mem_append_right _ again)

theorem or_lookup_cons (fresh : given k = none) :
    (fun name => (given name).or (((k, v) :: keyed).lookup name)) = fun name =>
      (Function.update given k (some v) name).or (keyed.lookup name) := by
  funext name
  rw [lookup_member]
  by_cases here : name = k
  · rw [here, fresh, if_pos rfl, Function.update_self, Option.none_or, Option.some_or]
  · rw [if_neg here, Function.update_of_ne here]

theorem complete?_fresh (member : k ∈ m.names) (fresh : given k = none) :
    m.complete? given seen ((k, v) :: keyed) =
      m.complete? (Function.update given k (some v)) (k :: seen) keyed := by
  rw [complete?, complete?, known_cons_of_mem member, or_lookup_cons v keyed fresh]
  exact if_congr List.nodup_middle.symm rfl rfl

section
variable {key : Literal} (text : Literal.text? key = some k) (record : ρ)
include text

theorem step_unknown (found : m.fields.find? (·.field.name == k) = none) :
    m.step (record, seen) key v = some (record, seen) := by
  simp only [step, text, Option.bind_some, found]

theorem step_again {f : FieldMeaning ρ} (found : m.fields.find? (·.field.name == k) = some f)
    (again : k ∈ seen) : m.step (record, seen) key v = none := by
  simp only [step, text, Option.bind_some, found, List.contains_iff_mem.2 again, ↓reduceIte]

theorem step_fresh {f : FieldMeaning ρ} (found : m.fields.find? (·.field.name == k) = some f)
    (fresh : k ∉ seen) :
    m.step (record, seen) key v = (f.meaning record v).map (·, k :: seen) := by
  have unseen : ¬seen.contains k = true := by rwa [List.contains_iff_mem]
  simp only [step, text, Option.bind_some, found, if_neg unseen]

end

variable (m given seen)

def Agrees : Prop := ∀ name ∈ m.names, name ∈ seen ↔ given name ≠ none

variable {m given seen}

theorem Agrees.update (agrees : m.Agrees given seen) :
    m.Agrees (Function.update given k (some v)) (k :: seen) := by
  intro name member
  by_cases here : name = k
  · simp [here]
  · simp [here, agrees name member]

theorem Agrees.eq_none (agrees : m.Agrees given seen) (member : k ∈ m.names) (fresh : k ∉ seen) :
    given k = none := by
  by_contra present
  exact fresh ((agrees k member).2 present)

variable (m given seen)

def readMembers (members : List Spelling.Member) : Option ρ :=
  (m.assemble given).bind fun record =>
    (members.foldlM (fun state member => m.step state member.key member.value)
      (record, seen)).map Prod.fst

variable {m given seen}

section
variable {member : Spelling.Member} (members : List Spelling.Member)

theorem readMembers_unreadable (text : Literal.text? member.key = none) :
    m.readMembers given seen (member :: members) = none := by
  have refused (record : ρ) : m.step (record, seen) member.key member.value = none := by
    rw [step, text]
    rfl
  simp only [readMembers, List.foldlM_cons, refused]
  cases m.assemble given <;> rfl

variable (text : Literal.text? member.key = some k)
include text

theorem readMembers_unknown (found : m.fields.find? (·.field.name == k) = none) :
    m.readMembers given seen (member :: members) = m.readMembers given seen members := by
  simp only [readMembers, List.foldlM_cons, step_unknown member.value text _ found]
  rfl

theorem readMembers_again {f : FieldMeaning ρ}
    (found : m.fields.find? (·.field.name == k) = some f) (again : k ∈ seen) :
    m.readMembers given seen (member :: members) = none := by
  simp only [readMembers, List.foldlM_cons, step_again member.value text _ found again]
  cases m.assemble given <;> rfl

theorem readMembers_fresh {f : FieldMeaning ρ}
    (found : m.fields.find? (·.field.name == k) = some f) (unseen : k ∉ seen)
    (fresh : given k = none) :
    m.readMembers given seen (member :: members) =
      m.readMembers (Function.update given k (some member.value)) (k :: seen) members := by
  simp only [readMembers, List.foldlM_cons, step_fresh member.value text _ found unseen]
  obtain ⟨mem, rfl⟩ := m.field_of_find? found
  rw [m.assemble_update f mem member.value fresh]
  cases m.assemble given with
  | none => rfl
  | some record =>
      simp only [Option.bind_some]
      cases f.meaning record member.value <;> rfl

end

variable (m given seen)

/-- Members that are read one after the other complete the record. It may be refused before them, so
that the step from one member to the next needs no case of its own. -/
theorem readMembers_eq_complete? (members : List Spelling.Member) (nodup : seen.Nodup)
    (agrees : m.Agrees given seen) :
    m.readMembers given seen members =
      (Spelling.keyed? members).bind (m.complete? given seen) := by
  induction members generalizing given seen with
  | nil =>
      change ((m.assemble given).bind fun record => some record) =
        if seen.Nodup then m.assemble fun name => (given name).or none else none
      rw [if_pos nodup, Option.bind_fun_some]
      simp only [Option.or_none]
  | cons member members ih =>
      rw [keyed?_cons]
      cases text : Literal.text? member.key with
      | none => exact readMembers_unreadable members text
      | some k =>
          rw [Option.bind_some, Option.bind_map]
          -- A member is skipped, repeats a field, or gives a field its value.
          cases found : m.fields.find? (·.field.name == k) with
          | none =>
              rw [readMembers_unknown members text found, ih given seen nodup agrees]
              refine congrArg _ (funext fun keyed => ?_)
              exact (complete?_unknown member.value keyed (m.not_mem_names found)).symm
          | some f =>
              have known : k ∈ m.names := (m.field_of_find? found).2 ▸
                List.mem_map.2 ⟨f, (m.field_of_find? found).1, rfl⟩
              by_cases again : k ∈ seen
              · rw [readMembers_again members text found again]
                refine (Option.bind_eq_none_iff.2 fun keyed _ => ?_).symm
                exact complete?_again member.value keyed known again
              · have fresh := agrees.eq_none known again
                rw [readMembers_fresh members text found again fresh,
                  ih _ _ (List.nodup_cons.2 ⟨again, nodup⟩) (agrees.update member.value)]
                refine congrArg _ (funext fun keyed => ?_)
                exact (complete?_fresh member.value keyed known fresh).symm

theorem result?_recordObject (inside : Gap) (members : List Spelling.Member) (rest : Bytes) :
    (recordObject m.readers m.empty).result? ((Spelling.object inside members).bytes.tail ++ rest) =
      (m.value? (.object inside members)).map (·, rest) := by
  have folded := result?_fold_members m.recordMember_denotes inside members (m.empty, []) rest
  have agrees : m.Agrees (fun _ => none) [] := fun _ _ => by simp
  have completed := m.readMembers_eq_complete? (fun _ => none) [] members List.nodup_nil agrees
  have meaning : m.value? (.object inside members) =
      (Spelling.keyed? members).bind (m.complete? (fun _ => none) []) := by
    rw [value?, Spelling.fields?]
    cases Spelling.keyed? members with
    | none => rfl
    | some keyed =>
        simp only [Option.bind_some, complete?, List.append_nil, Option.none_or]
        split <;> rfl
  rw [readMembers, m.assemble_none, Option.bind_some] at completed
  rw [meaning, ← completed, recordObject, result?_bind]
  refine (congrArg (Option.bind · _) folded).trans ?_
  cases members.foldlM (fun state member => m.step state member.key member.value) (m.empty, []) <;> rfl

theorem spelled_recordObject {s r : Bytes} {record : ρ}
    (ok : (recordObject m.readers m.empty).run s = .ok (record, r)) :
    ∃ inside members, byte '\x7b' :: s = (Spelling.object inside members).bytes ++ r := by
  obtain ⟨⟨_, _⟩, t, taken, ok⟩ := run_bind_ok.1 ok
  obtain ⟨inside, members, u, rfl, eq⟩ := spelled_fold_members m.recordMember_denotes taken
  obtain ⟨_, _, next, ok⟩ := run_bind_ok.1 ok
  cases next
  obtain rfl := (run_pure_ok.1 ok).2
  exact ⟨inside, members, eq⟩

/-! ## Items -/

theorem result?_arrayEnd (gap : Gap) (rest : Bytes) :
    arrayEnd.result? (Gap.bytes gap ++ byte ']' :: rest) = some ((), rest) := by
  rw [arrayEnd, result?_token (by decide), if_pos rfl]
  rfl

theorem result?_arrayEnd_other {b : UInt8} (visible : isBlank b = false) (other : b ≠ byte ']')
    (gap : Gap) (rest : Bytes) : arrayEnd.result? (Gap.bytes gap ++ b :: rest) = none := by
  rw [arrayEnd, result?_token visible, if_neg other]
  split
  · rw [result?_bind]
    change Reader.result? _ _ = none
    rw [result?_peek?_bind]
    split <;> rfl
  · rfl

theorem spelled_arrayEnd {s r : Bytes} {u : Unit} (read : arrayEnd.run s = .ok (u, r)) :
    ∃ gap, s = Gap.bytes gap ++ byte ']' :: r := by
  obtain ⟨gap, b, t, rfl, visible, ok⟩ := spelled_token read
  by_cases closing : b = byte ']'
  · rw [if_pos closing] at ok
    obtain ⟨-, rfl⟩ := run_pure_ok.1 ok
    exact ⟨gap, by rw [closing]⟩
  · have refused := result?_of_ok read
    rw [result?_arrayEnd_other visible closing] at refused
    cases refused

def recordRest (fields : List (FieldMeaning ρ)) (first : Bool) (record : ρ) : Reader ρ := do
  let record ← recordItems (fields.map (·.field)) first record
  arrayEnd
  pure record

def items? : List (FieldMeaning ρ) → List Spelling.Item → ρ → Option ρ
  | _, [], record => some record
  | [], _ :: _, _ => none
  | f :: fields, item :: items, record =>
    (f.meaning record item.value).bind (items? fields items)

theorem result?_recordRest_nil (first : Bool) (record : ρ) (s : Bytes) :
    (recordRest [] first record).result? s = (arrayEnd.result? s).map fun (_, r) => (record, r) := by
  change (arrayEnd >>= fun _ => pure record : Reader ρ).result? s = _
  rw [result?_bind]
  cases arrayEnd.result? s <;> rfl

section
variable {f : FieldMeaning ρ} {fields : List (FieldMeaning ρ)} {first : Bool} {record : ρ}
  {s t : Bytes}

theorem result?_recordRest_end (ended : (nextItem first).result? s = some (false, t)) :
    (recordRest (f :: fields) first record).result? s =
      (arrayEnd.result? t).map fun (_, r) => (record, r) := by
  simp only [recordRest, List.map_cons, recordItems, result?_bind, ended, Option.bind_some,
    if_neg Bool.false_ne_true, result?_pure]
  cases arrayEnd.result? t <;> rfl

theorem result?_recordRest_more (more : (nextItem first).result? s = some (true, t)) :
    (recordRest (f :: fields) first record).result? s =
      ((f.field.read record).result? t).bind fun (record, r) =>
        (recordRest fields false record).result? r := by
  simp only [recordRest, List.map_cons, recordItems, result?_bind, more, Option.bind_some, if_true]
  cases (f.field.read record).result? t <;> rfl

end

theorem result?_recordRest (fields : List (FieldMeaning ρ)) (record : ρ) (gap : Gap)
    (items : List Spelling.Item) (rest : Bytes) :
    (recordRest fields false record).result?
        (Gap.bytes gap ++ (Spelling.itemBytes items ++ rest)) =
      (items? fields items record).map (·, rest) := by
  induction fields generalizing record gap items with
  | nil =>
      rw [result?_recordRest_nil]
      cases items with
      | nil => exact congrArg (Option.map _) (result?_arrayEnd gap rest)
      | cons item items =>
          rw [itemBytes_cons, result?_arrayEnd_other (by decide) (by decide)]
          rfl
  | cons f fields ih =>
      cases items with
      | nil =>
          refine (result?_recordRest_end (result?_nextItem_end false gap rest)).trans ?_
          exact congrArg (Option.map _) (result?_arrayEnd [] rest)
      | cons item items =>
          obtain ⟨before, v, after⟩ := item
          rw [itemBytes_cons, result?_recordRest_more (result?_nextItem_comma gap _ before v),
            (f.denotes record).reads_here v (stops_gap after (stops_itemBytes items rest)), items?]
          cases f.meaning record v with
          | none => rfl
          | some next => exact ih next after items

theorem result?_recordArray (fields : List (FieldMeaning ρ)) (record : ρ) (inside : Gap)
    (items : List Spelling.Item) (rest : Bytes) :
    (recordRest fields true record).result? ((Spelling.array inside items).bytes.tail ++ rest) =
      (items? fields items record).map (·, rest) := by
  cases items with
  | nil =>
      simp only [Spelling.bytes, List.tail_cons, List.append_assoc, items?]
      cases fields with
      | nil =>
          rw [result?_recordRest_nil]
          exact congrArg (Option.map _) (result?_arrayEnd inside rest)
      | cons f fields =>
          refine (result?_recordRest_end (result?_nextItem_end true inside rest)).trans ?_
          exact congrArg (Option.map _) (result?_arrayEnd [] rest)
  | cons item items =>
      obtain ⟨before, v, after⟩ := item
      have opened := congrArg List.tail (arrayBytes_cons inside before v after items rest)
      obtain ⟨s, eq⟩ := exists_bytes_eq_cons (.array inside (⟨before, v, after⟩ :: items))
      rw [eq, List.cons_append, List.tail_cons, List.tail_cons] at opened
      rw [eq, List.tail_cons, opened]
      cases fields with
      | nil =>
          obtain ⟨u, start⟩ := exists_bytes_eq_cons v
          obtain ⟨visible, other⟩ := firstByte_visible v
          rw [result?_recordRest_nil, start, List.cons_append, result?_arrayEnd_other visible other]
          rfl
      | cons f fields =>
          rw [result?_recordRest_more (result?_nextItem_first _ _ v),
            (f.denotes record).reads_here v (stops_gap after (stops_itemBytes items rest)), items?]
          cases f.meaning record v with
          | none => rfl
          | some next => exact result?_recordRest fields next after items rest

theorem recordRest_ok {f : FieldMeaning ρ} {fields : List (FieldMeaning ρ)} {first : Bool}
    {record final : ρ} {s r : Bytes}
    (ok : (recordRest (f :: fields) first record).run s = .ok (final, r)) :
    (∃ t gap, (nextItem first).run s = .ok (false, t) ∧ t = Gap.bytes gap ++ byte ']' :: r) ∨
      ∃ t next t', (nextItem first).run s = .ok (true, t) ∧
        (f.field.read record).run t = .ok (next, t') ∧
        (recordRest fields false next).run t' = .ok (final, r) := by
  obtain ⟨record', u, items, ended⟩ := run_bind_ok.1 ok
  rw [List.map_cons, recordItems] at items
  obtain ⟨more, t, next, read⟩ := run_bind_ok.1 items
  cases more with
  | false =>
      obtain ⟨-, rfl⟩ := run_pure_ok.1 read
      obtain ⟨_, _, closed, ended⟩ := run_bind_ok.1 ended
      obtain ⟨-, rfl⟩ := run_pure_ok.1 ended
      obtain ⟨gap, eq⟩ := spelled_arrayEnd closed
      exact .inl ⟨t, gap, next, eq⟩
  | true =>
      obtain ⟨record, t', taken, others⟩ := run_bind_ok.1 read
      exact .inr ⟨t, record, t', next, taken, run_bind_ok.2 ⟨record', u, others, ended⟩⟩

theorem spelled_recordRest_nil {first : Bool} {record final : ρ} {s r : Bytes}
    (ok : (recordRest [] first record).run s = .ok (final, r)) :
    ∃ gap, s = Gap.bytes gap ++ byte ']' :: r := by
  obtain ⟨_, t, taken, ok⟩ := run_bind_ok.1 ok
  obtain ⟨-, rfl⟩ := run_pure_ok.1 taken
  obtain ⟨_, _, closed, ended⟩ := run_bind_ok.1 ok
  obtain ⟨-, rfl⟩ := run_pure_ok.1 ended
  exact spelled_arrayEnd closed

theorem spelled_recordRest {fields : List (FieldMeaning ρ)} {record final : ρ} {s r : Bytes}
    (ok : (recordRest fields false record).run s = .ok (final, r)) :
    ∃ gap items, s = Gap.bytes gap ++ (Spelling.itemBytes items ++ r) := by
  induction fields generalizing record s with
  | nil =>
      obtain ⟨gap, rfl⟩ := spelled_recordRest_nil ok
      exact ⟨gap, [], rfl⟩
  | cons f fields ih =>
      obtain ⟨t, gap', ended, closed⟩ | ⟨t, next, t', more, taken, others⟩ := recordRest_ok ok
      · obtain ⟨-, gap, u, -, rfl⟩ | ⟨absurd, -⟩ := spelled_nextItem ended
        · refine ⟨gap ++ gap', [], ?_⟩
          rw [closed, gap_append, List.append_assoc]
          rfl
        · cases absurd
      · obtain ⟨absurd, -⟩ | ⟨-, gap, before, rfl⟩ := spelled_nextItem more
        · cases absurd
        obtain ⟨before', v, rfl⟩ := (f.denotes record).spelled t next t' taken
        obtain ⟨after, items, rfl⟩ := ih others
        refine ⟨gap, ⟨before ++ before', v, after⟩ :: items, ?_⟩
        rw [itemBytes_cons, gap_append, List.append_assoc]
        rfl

theorem spelled_recordArray (fields : List (FieldMeaning ρ)) {record final : ρ} {s r : Bytes}
    (ok : (recordRest fields true record).run s = .ok (final, r)) :
    ∃ inside items, byte '[' :: s = (Spelling.array inside items).bytes ++ r := by
  have empty (inside : Gap) : byte '[' :: (Gap.bytes inside ++ byte ']' :: r) =
      (Spelling.array inside []).bytes ++ r := by
    rw [Spelling.bytes, List.cons_append, List.append_assoc]
    rfl
  cases fields with
  | nil =>
      obtain ⟨inside, rfl⟩ := spelled_recordRest_nil ok
      exact ⟨inside, [], empty inside⟩
  | cons f fields =>
      obtain ⟨t, gap', ended, closed⟩ | ⟨t, next, t', more, taken, others⟩ := recordRest_ok ok
      · obtain ⟨-, gap, u, -, rfl⟩ | ⟨absurd, -⟩ := spelled_nextItem ended
        · refine ⟨gap ++ gap', [], ?_⟩
          rw [closed, ← empty, gap_append, List.append_assoc]
        · cases absurd
      · obtain ⟨absurd, -⟩ | ⟨-, inside, rfl⟩ := spelled_nextItem more
        · cases absurd
        obtain ⟨before, v, rfl⟩ := (f.denotes record).spelled t next t' taken
        obtain ⟨after, items, rfl⟩ := spelled_recordRest others
        refine ⟨inside, ⟨before, v, after⟩ :: items, ?_⟩
        rw [arrayBytes_cons, gap_append, List.append_assoc]
        rfl

theorem items?_eq_assemble (fields : List (FieldMeaning ρ)) (among : ∀ f ∈ fields, f ∈ m.fields)
    (distinct : (fields.map (·.field.name)).Nodup)
    (fresh : ∀ f ∈ fields, given f.field.name = none) (items : List Spelling.Item) :
    (m.assemble given).bind (items? fields items) =
      if items.length ≤ fields.length then
        m.assemble fun name => (given name).or
          (((fields.map (·.field.name)).zip (items.map (·.value))).lookup name)
      else none := by
  induction fields generalizing given items with
  | nil =>
      cases items with
      | nil =>
          change (m.assemble given).bind (fun record => some record) = _
          simp
      | cons item items => cases m.assemble given <;> rfl
  | cons f fields ih =>
      cases items with
      | nil =>
          change (m.assemble given).bind (fun record => some record) = _
          simp
      | cons item items =>
          obtain ⟨other, distinct⟩ := List.nodup_cons.1 distinct
          have fresh' : ∀ f' ∈ fields,
              Function.update given f.field.name (some item.value) f'.field.name = none := by
            intro f' mem
            have here : f'.field.name ≠ f.field.name := fun same =>
              other (List.mem_map.2 ⟨f', mem, same⟩)
            rw [Function.update_of_ne here]
            exact fresh f' (List.mem_cons_of_mem f mem)
          have others := ih _ (fun f' mem => among f' (List.mem_cons_of_mem f mem)) distinct fresh' items
          rw [m.assemble_update f (among f List.mem_cons_self) item.value
            (fresh f List.mem_cons_self), Option.bind_assoc] at others
          refine others.trans ?_
          simp only [List.length_cons, Nat.succ_le_succ_iff, List.map_cons, List.zip_cons_cons,
            or_lookup_cons item.value _ (fresh f List.mem_cons_self)]

theorem items?_eq_value? (inside : Gap) (items : List Spelling.Item) :
    items? m.fields items m.empty = m.value? (.array inside items) := by
  have assembled := items?_eq_assemble m (fun _ => none) m.fields (fun _ mem => mem) m.distinct
    (fun _ _ => rfl) items
  rw [m.assemble_none, Option.bind_some] at assembled
  rw [assembled, value?, Spelling.fields?, names, List.length_map]
  split <;> rfl

/-! ## Records -/

theorem record_denotes (expected : String) : Denotes (record expected m.readers m.empty) m.value? where
  reads gap v rest _ := by
    rw [record, result?_token_bytes]
    by_cases object : firstByte v = byte '\x7b'
    · obtain ⟨inside, members, rfl⟩ := eq_object_of_firstByte object
      rw [if_pos object]
      exact m.result?_recordObject inside members rest
    by_cases array : firstByte v = byte '['
    · obtain ⟨inside, items, rfl⟩ := eq_array_of_firstByte array
      rw [if_neg object, if_pos array, ← items?_eq_value?]
      exact result?_recordArray m.fields m.empty inside items rest
    · have other : m.value? v = none := by
        cases v with
        | object => exact absurd rfl object
        | array => exact absurd rfl array
        | _ => rfl
      rw [if_neg object, if_neg array, result?_wrongType, other]
      rfl
  spelled s a r ok := by
    obtain ⟨gap, b, t, rfl, -, ok⟩ := spelled_token ok
    split at ok
    · rename_i brace
      obtain ⟨inside, members, eq⟩ := m.spelled_recordObject ok
      exact ⟨gap, .object inside members, by rw [brace, eq]⟩
    split at ok
    · rename_i bracket
      obtain ⟨inside, items, eq⟩ := spelled_recordArray m.fields ok
      exact ⟨gap, .array inside items, by rw [bracket, eq]⟩
    · exact absurd ok not_wrongType

end RecordMeaning

end LatencyGate.Json.Reader
