import Mathlib
import LatencyGate.Proofs.Json.Reading.Records

namespace LatencyGate.Json

open Reader (byte)

/-- Members with a comma behind each, then one more key, and then anything. -/
def Spelling.untilKey (gap : Gap) (key : Literal) (rest : Bytes) : List Spelling.Member → Bytes
  | [] => Gap.bytes gap ++ byte '"' :: (Literal.bytes key ++ byte '"' :: rest)
  | m :: members =>
    Gap.bytes m.before ++ byte '"' :: Reader.labelled m.key m.beforeColon m.afterColon
      (m.value.bytes ++ (Gap.bytes m.after ++ byte ',' :: untilKey gap key rest members))

/-- Items with a comma behind each, and then anything. -/
def Spelling.untilItem (rest : Bytes) : List Spelling.Item → Bytes
  | [] => rest
  | item :: items =>
    Gap.bytes item.before ++ (item.value.bytes ++
      (Gap.bytes item.after ++ byte ',' :: untilItem rest items))

namespace Reader

open Spelling (untilKey untilItem)

theorem stops_comma (s : Bytes) : Stops (byte ',' :: s) := by
  intro b head
  obtain rfl : byte ',' = b := Option.some.inj head
  decide

section
variable {σ : Type} {item : σ → Reader σ} {sense : σ → Literal → Spelling → Option σ}
  {gap : Gap} {key : Literal} {rest : Bytes}

theorem foldFrom_untilKey (denotes : DenotesMembers item sense) (members : List Spelling.Member)
    (first : Bool) (gap' : Gap) (state : σ) :
    (foldFrom memberSeparator item first state
        (leading first gap' (untilKey gap key rest members))).toOption =
      (members.foldlM (fun state m => sense state m.key m.value) state).bind fun reached =>
        ((item reached).result? (Literal.bytes key ++ byte '"' :: rest)).bind fun (next, r) =>
          (foldFrom memberSeparator item false next r).toOption := by
  induction members generalizing first gap' state with
  | nil => exact foldFrom_of_more item state (result?_nextKey_leading first gap' _ gap)
  | cons m members ih =>
      rw [untilKey, foldFrom_of_more item state (result?_nextKey_leading first gap' _ m.before),
        denotes.reads state _ _ _ _ _ (stops_gap m.after (stops_comma _)), List.foldlM_cons]
      cases sense state m.key m.value with
      | none => rfl
      | some next => exact ih false m.after next

end

namespace RecordMeaning

variable {ρ : Type} {m : RecordMeaning ρ} {key : Literal} {k : String} {rest : Bytes}

theorem given_of_step {state next : ρ × List String} {v : Spelling}
    (taken : m.step state key v = some next) (known : k ∈ m.names)
    (given : k ∈ state.2 ∨ Literal.text? key = some k) : k ∈ next.2 := by
  obtain ⟨name, text, taken⟩ := Option.bind_eq_some_iff.1 taken
  rw [text, Option.some.injEq] at given
  cases found : m.fields.find? (·.field.name == name) with
  | none =>
      simp only [found, Option.some.injEq] at taken
      obtain given | rfl := given
      · rwa [← taken]
      · exact absurd known (m.not_mem_names found)
  | some f =>
      simp only [found] at taken
      split at taken
      · cases taken
      · obtain ⟨record, -, rfl⟩ := Option.map_eq_some_iff.1 taken
        obtain given | rfl := given
        · exact List.mem_cons_of_mem _ given
        · exact List.mem_cons_self

theorem given_of_members {members : List Spelling.Member} {state final : ρ × List String}
    (taken : members.foldlM (fun state member => m.step state member.key member.value) state =
      some final) (known : k ∈ m.names)
    (given : k ∈ state.2 ∨ ∃ member ∈ members, Literal.text? member.key = some k) :
    k ∈ final.2 := by
  -- No member takes back a name that was given.
  induction members generalizing state with
  | nil =>
      cases taken
      simpa using given
  | cons member members ih =>
      rw [List.foldlM_cons] at taken
      obtain ⟨next, step, taken⟩ := Option.bind_eq_some_iff.1 taken
      refine ih taken ?_
      obtain given | ⟨other, mem, text⟩ := given
      · exact .inl (given_of_step step known (.inl given))
      · obtain rfl | mem := List.mem_cons.1 mem
        · exact .inl (given_of_step step known (.inr text))
        · exact .inr ⟨other, mem, text⟩

theorem find?_of_mem_names (known : k ∈ m.names) :
    ∃ f, m.fields.find? (·.field.name == k) = some f := by
  cases found : m.fields.find? (·.field.name == k) with
  | none => exact absurd known (m.not_mem_names found)
  | some f => exact ⟨f, rfl⟩

theorem result?_recordMember_again {state : ρ × List String} (known : k ∈ m.names)
    (text : Literal.text? key = some k) (again : k ∈ state.2) :
    (recordMember m.readers state).result? (Literal.bytes key ++ byte '"' :: rest) = none := by
  obtain ⟨f, found⟩ := find?_of_mem_names known
  obtain ⟨record, given⟩ := state
  rw [recordMember, result?_bind, result?_string, text]
  change Reader.result? _ rest = none
  simp only [find?_readers, found, Option.map_some, List.contains_iff_mem.2 again, if_true,
    result?_duplicate]

theorem result?_recordObject_untilKey {inside gap : Gap} {members : List Spelling.Member}
    (refused : ∀ final, members.foldlM (fun state member => m.step state member.key member.value)
        (m.empty, []) = some final →
      (recordMember m.readers final).result? (Literal.bytes key ++ byte '"' :: rest) = none) :
    (recordObject m.readers m.empty).result?
      (Gap.bytes inside ++ untilKey gap key rest members) = none := by
  have folded : (fold memberSeparator (recordMember m.readers) (m.empty, [])).result?
      (Gap.bytes inside ++ untilKey gap key rest members) = none := by
    refine (foldFrom_untilKey m.recordMember_denotes members true inside (m.empty, [])).trans ?_
    refine Option.bind_eq_none_iff.2 fun final taken => ?_
    rw [refused final taken]
    rfl
  rw [recordObject, result?_bind, folded]
  rfl

theorem result?_recordObject_again {inside gap : Gap} {members : List Spelling.Member}
    (known : k ∈ m.names) (text : Literal.text? key = some k)
    (given : ∃ member ∈ members, Literal.text? member.key = some k) :
    (recordObject m.readers m.empty).result?
      (Gap.bytes inside ++ untilKey gap key rest members) = none :=
  result?_recordObject_untilKey fun _ taken =>
    result?_recordMember_again known text (given_of_members taken known (.inr given))

theorem result?_recordMember_refused {state : ρ × List String} {f : FieldMeaning ρ}
    (found : m.fields.find? (·.field.name == k) = some f) (text : Literal.text? key = some k)
    (refused : ∀ record, (f.field.read record).result? rest = none) (beforeColon : Gap) :
    (recordMember m.readers state).result?
      (Literal.bytes key ++ byte '"' :: (Gap.bytes beforeColon ++ byte ':' :: rest)) = none := by
  obtain ⟨record, given⟩ := state
  rw [recordMember, result?_bind, result?_string, text]
  change Reader.result? _ (Gap.bytes beforeColon ++ byte ':' :: rest) = none
  simp only [find?_readers, found, Option.map_some]
  split
  · exact result?_duplicate _ _
  · rw [result?_bind_some (result?_colon beforeColon rest), result?_bind, refused record]
    rfl

/-- An array is refused at an item that the reader of its field refuses, whatever stands before. -/
theorem result?_recordRest_untilItem {fields : List (FieldMeaning ρ)} {f : FieldMeaning ρ}
    {items : List Spelling.Item} (place : fields[items.length]? = some f) {b : UInt8} {s : Bytes}
    (visible : isBlank b = false) (other : b ≠ byte ']')
    (refused : ∀ record, (f.field.read record).result? (b :: s) = none) (first : Bool)
    (gap gap' : Gap) (record : ρ) :
    (recordRest fields first record).result?
      (leading first gap (untilItem (Gap.bytes gap' ++ b :: s) items)) = none := by
  induction items generalizing fields first gap record with
  | nil =>
      cases fields with
      | nil => cases place
      | cons g fields =>
          obtain rfl := Option.some.inj place
          rw [untilItem, result?_recordRest_more
            (result?_nextItem_visible first gap s gap' visible other), refused record]
          rfl
  | cons item items ih =>
      obtain ⟨before, v, after⟩ := item
      cases fields with
      | nil => cases place
      | cons g fields =>
          rw [untilItem, result?_recordRest_more (result?_nextItem_value first gap _ before v),
            (g.denotes record).reads_here v (stops_gap after (stops_comma _))]
          cases g.meaning record v with
          | none => rfl
          | some next => exact ih place false after next

theorem result?_recordArray_untilItem {f : FieldMeaning ρ} {items : List Spelling.Item}
    (place : m.fields[items.length]? = some f) {b : UInt8} {s : Bytes}
    (visible : isBlank b = false) (other : b ≠ byte ']')
    (refused : ∀ record, (f.field.read record).result? (b :: s) = none) (inside gap : Gap) :
    (recordArray m.readers m.empty).result?
      (Gap.bytes inside ++ untilItem (Gap.bytes gap ++ b :: s) items) = none :=
  result?_recordRest_untilItem place visible other refused true inside gap m.empty

end RecordMeaning

end Reader

end LatencyGate.Json
