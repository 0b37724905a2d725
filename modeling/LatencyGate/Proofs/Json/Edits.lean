import Mathlib
import LatencyGate.Proofs.Json.Reading.Records
import LatencyGate.Proofs.Json.Respelling

namespace LatencyGate.Json

namespace Spelling

/-- A member with this key is added to an object, whatever its value. The key may be garbled. -/
inductive AddsMember : Literal → Spelling → Spelling → Prop
  | intro (inside : Gap) (before : List Member) (m : Member) (after : List Member) :
      AddsMember m.key (.object inside (before ++ after)) (.object inside (before ++ m :: after))

/-- The value of a field is replaced, in an object or in an array that lists the fields. -/
inductive Replaces (names : List String) (name : String) (old new : Spelling) :
    Spelling → Spelling → Prop
  | member (inside : Gap) (before : List Member) (m : Member) (after : List Member)
    (key : Literal.text? m.key = some name) (value : m.value = old) :
      Replaces names name old new (.object inside (before ++ m :: after))
        (.object inside (before ++ { m with value := new } :: after))
  | item (inside : Gap) (before : List Item) (item : Item) (after : List Item)
    (place : names[before.length]? = some name) (value : item.value = old) :
      Replaces names name old new (.array inside (before ++ item :: after))
        (.array inside (before ++ { item with value := new } :: after))

/-- A field is set to a value: it is replaced if the record has the field already, and added to it
otherwise. An array that stops before the field is filled up with `null`. -/
inductive Sets (names : List String) (name : String) (v : Spelling) : Spelling → Spelling → Prop
  | replaces (old : Spelling) {w w' : Spelling} (replaces : Replaces names name old v w w') :
      Sets names name v w w'
  | adds (inside : Gap) (before : List Member) (m : Member) (after : List Member)
    (key : Literal.text? m.key = some name) (value : m.value = v)
    (fresh : ∀ other ∈ before ++ after, Literal.text? other.key ≠ some name) :
      Sets names name v (.object inside (before ++ after)) (.object inside (before ++ m :: after))
  | appends (inside : Gap) (items filling : List Item) (item : Item)
    (nulls : ∀ i ∈ filling, i.value = .null)
    (place : names[(items ++ filling).length]? = some name) (value : item.value = v) :
      Sets names name v (.array inside items) (.array inside (items ++ filling ++ [item]))

section
variable {names : List String} {name : String} {v w w' : Spelling}

theorem AddsMember.ne_null {key : Literal} (adds : AddsMember key w w') : w ≠ .null ∧ w' ≠ .null := by
  cases adds
  exact ⟨nofun, nofun⟩

theorem Replaces.symm {old : Spelling} (replaces : Replaces names name old v w w') :
    Replaces names name v old w' w := by
  cases replaces with
  | member inside before m after key value =>
      subst value
      exact .member inside before { m with value := v } after key rfl
  | item inside before item after place value =>
      subst value
      exact .item inside before { item with value := v } after place rfl

theorem Replaces.ne_null {old : Spelling} (replaces : Replaces names name old v w w') :
    w ≠ .null ∧ w' ≠ .null := by
  cases replaces <;> exact ⟨nofun, nofun⟩

theorem Sets.ne_null (sets : Sets names name v w w') : w ≠ .null ∧ w' ≠ .null := by
  cases sets with
  | replaces old replaces => exact replaces.ne_null
  | adds => exact ⟨nofun, nofun⟩
  | appends => exact ⟨nofun, nofun⟩

end

theorem keyed?_append {members members' : List Member} {keyed : List (String × Spelling)} :
    keyed? (members ++ members') = some keyed ↔
      ∃ first last, keyed? members = some first ∧ keyed? members' = some last ∧
        keyed = first ++ last := by
  induction members generalizing keyed with
  | nil =>
      have empty : keyed? [] = some [] := rfl
      simp [empty, eq_comm]
  | cons m members ih =>
      rw [List.cons_append, keyed?_cons, keyed?_cons]
      cases Literal.text? m.key with
      | none => simp
      | some k =>
          simp only [Option.bind_some, Option.map_eq_some_iff, ih]
          constructor
          · rintro ⟨_, ⟨first, last, read, read', rfl⟩, rfl⟩
            exact ⟨_, last, ⟨first, read, rfl⟩, read', rfl⟩
          · rintro ⟨_, last, ⟨first, read, rfl⟩, read', rfl⟩
            exact ⟨_, ⟨first, last, read, read', rfl⟩, rfl⟩

theorem keyed?_middle {m : Member} {k : String} (key : Literal.text? m.key = some k)
    {before after : List Member} {keyed : List (String × Spelling)} :
    keyed? (before ++ m :: after) = some keyed ↔
      ∃ first last, keyed? before = some first ∧ keyed? after = some last ∧
        keyed = first ++ (k, m.value) :: last := by
  rw [keyed?_append]
  simp only [keyed?_cons, key, Option.bind_some, Option.map_eq_some_iff]
  constructor
  · rintro ⟨first, _, read, ⟨last, read', rfl⟩, rfl⟩
    exact ⟨first, last, read, read', rfl⟩
  · rintro ⟨first, last, read, read', rfl⟩
    exact ⟨first, _, read, ⟨last, read', rfl⟩, rfl⟩

theorem key_mem_of_keyed? {members : List Member} {keyed : List (String × Spelling)}
    (read : keyed? members = some keyed) {k : String} (named : k ∈ keyed.map Prod.fst) :
    ∃ m ∈ members, Literal.text? m.key = some k := by
  obtain ⟨a, mem, rfl⟩ := List.mem_map.1 named
  have given : some a.1 ∈ members.map fun m => Literal.text? m.key := by
    rw [map_text?_of_keyed? read]
    exact List.mem_map.2 ⟨a, mem, rfl⟩
  exact List.mem_map.1 given

section
variable {α : Type} {k : String} {first : List (String × α)} (v : α) (last : List (String × α))

theorem lookup_middle_self (fresh : k ∉ first.map Prod.fst) :
    (first ++ (k, v) :: last).lookup k = some v := by
  induction first with
  | nil => rw [List.nil_append, lookup_member, if_pos rfl]
  | cons a first ih =>
      rw [List.map_cons, List.mem_cons, not_or] at fresh
      rw [List.cons_append, lookup_member, if_neg fresh.1, ih fresh.2]

theorem lookup_middle_of_ne {name : String} (other : name ≠ k) :
    (first ++ (k, v) :: last).lookup name = (first ++ last).lookup name := by
  rw [List.lookup_append, List.lookup_append, lookup_member, if_neg other]

theorem lookup_middle (fresh : k ∉ first.map Prod.fst) :
    (fun name => (first ++ (k, v) :: last).lookup name) =
      Function.update (fun name => (first ++ last).lookup name) k (some v) := by
  funext name
  by_cases here : name = k
  · rw [here, lookup_middle_self v last fresh, Function.update_self]
  · rw [lookup_middle_of_ne v last here, Function.update_of_ne here]

theorem lookup_replaced (u : α) (fresh : k ∉ first.map Prod.fst) :
    (fun name => (first ++ (k, v) :: last).lookup name) =
      Function.update (fun name => (first ++ (k, u) :: last).lookup name) k (some v) := by
  rw [lookup_middle v last fresh, lookup_middle u last fresh, Function.update_idem]

end

/-! ## Fields of objects -/

variable {names : List String} {name : String} {v w w' : Spelling}
  {given : String → Option Spelling}

theorem fields?_object {inside : Gap} {members : List Member} :
    fields? names (.object inside members) = some given ↔
      ∃ keyed, keyed? members = some keyed ∧ ((known names keyed).map Prod.fst).Nodup ∧
        given = fun name => keyed.lookup name := by
  rw [fields?, Option.bind_eq_some_iff]
  refine exists_congr fun keyed => and_congr_right fun _ => ?_
  split <;> rename_i once
  · simp [once, eq_comm]
  · simp [once]

theorem mem_keys_known (member : name ∈ names) (keyed : List (String × Spelling)) :
    name ∈ (known names keyed).map Prod.fst ↔ name ∈ keyed.map Prod.fst := by
  rw [map_fst_known, List.mem_filter, and_iff_left (List.contains_iff_mem.2 member)]

theorem nodup_known_middle (member : name ∈ names) (first last : List (String × Spelling)) :
    ((known names (first ++ (name, v) :: last)).map Prod.fst).Nodup ↔
      (name ∉ first.map Prod.fst ∧ name ∉ last.map Prod.fst) ∧
        ((known names (first ++ last)).map Prod.fst).Nodup := by
  rw [known_append, known_append, known_cons_of_mem member, List.map_append, List.map_append,
    List.map_cons, List.nodup_middle, List.nodup_cons, List.mem_append, mem_keys_known member,
    mem_keys_known member, not_or]

section
variable {key : Literal}

theorem fields?_addsMember {k : String} (text : Literal.text? key = some k) (other : k ∉ names)
    (adds : AddsMember key w w') (read : fields? names w = some given) :
    ∃ given', fields? names w' = some given' ∧ ∀ name ∈ names, given' name = given name := by
  obtain ⟨inside, before, m, after⟩ := adds
  obtain ⟨_, keyed, once, rfl⟩ := fields?_object.1 read
  obtain ⟨first, last, keys, keys', rfl⟩ := keyed?_append.1 keyed
  refine ⟨_, fields?_object.2 ⟨_, (keyed?_middle text).2 ⟨first, last, keys, keys', rfl⟩, ?_, rfl⟩,
    fun name member => lookup_middle_of_ne m.value last (ne_of_mem_of_not_mem member other)⟩
  rwa [known_append, known_cons_of_not_mem other, ← known_append]

/-- All keys of a record are read, so one that is garbled cannot have been added. -/
theorem fields?_of_addsMember (unread : ∀ k ∈ names, Literal.text? key ≠ some k)
    (adds : AddsMember key w w') (read : fields? names w' = some given) :
    (Literal.text? key).isSome ∧
      ∃ given', fields? names w = some given' ∧ ∀ name ∈ names, given' name = given name := by
  obtain ⟨inside, before, m, after⟩ := adds
  obtain ⟨_, keyed, once, rfl⟩ := fields?_object.1 read
  obtain ⟨_, _, -, behind, -⟩ := keyed?_append.1 keyed
  rw [keyed?_cons] at behind
  obtain ⟨k, text, -⟩ := Option.bind_eq_some_iff.1 behind
  obtain ⟨first, last, keys, keys', rfl⟩ := (keyed?_middle text).1 keyed
  have other : k ∉ names := fun member => unread k member text
  rw [known_append, known_cons_of_not_mem other, ← known_append] at once
  have keyed' := keyed?_append.2 ⟨first, last, keys, keys', rfl⟩
  refine ⟨Option.isSome_of_eq_some text, _, fields?_object.2 ⟨_, keyed', once, rfl⟩, ?_⟩
  intro name member
  exact (lookup_middle_of_ne m.value last (ne_of_mem_of_not_mem member other)).symm

end

theorem fields?_add_member (member : name ∈ names) {inside : Gap} {before after : List Member}
    {m : Member} (key : Literal.text? m.key = some name)
    (fresh : ∀ other ∈ before ++ after, Literal.text? other.key ≠ some name)
    (read : fields? names (.object inside (before ++ after)) = some given) :
    fields? names (.object inside (before ++ m :: after)) =
      some (Function.update given name (some m.value)) := by
  obtain ⟨all, keyed, once, rfl⟩ := fields?_object.1 read
  have unnamed : name ∉ all.map Prod.fst := by
    intro named
    obtain ⟨other, mem, key⟩ := key_mem_of_keyed? keyed named
    exact fresh other mem key
  obtain ⟨first, last, keys, keys', rfl⟩ := keyed?_append.1 keyed
  rw [List.map_append, List.mem_append, not_or] at unnamed
  exact fields?_object.2 ⟨_, (keyed?_middle key).2 ⟨first, last, keys, keys', rfl⟩,
    (nodup_known_middle member first last).2 ⟨unnamed, once⟩,
    (lookup_middle m.value last unnamed.1).symm⟩

/-! ## Fields of arrays -/

theorem fields?_array {inside : Gap} {items : List Item} :
    fields? names (.array inside items) = some given ↔
      items.length ≤ names.length ∧
        given = fun name => (names.zip (items.map (·.value))).lookup name := by
  rw [fields?]
  split <;> rename_i fits
  · simp [fits, eq_comm]
  · simp [fits]

theorem eq_append_of_getElem? {n : Nat} (place : names[n]? = some name) :
    ∃ first last, names = first ++ name :: last ∧ first.length = n := by
  obtain ⟨bound, here⟩ := List.getElem?_eq_some_iff.1 place
  refine ⟨names.take n, names.drop (n + 1), ?_, List.length_take_of_le bound.le⟩
  rw [← here, List.getElem_cons_drop, List.take_append_drop]

theorem not_mem_keys_zip {first last : List String} (distinct : (first ++ name :: last).Nodup)
    {values : List Spelling} (length : first.length = values.length) :
    name ∉ (first.zip values).map Prod.fst := by
  rw [List.map_fst_zip length.le]
  exact fun mem => (List.nodup_cons.1 (List.nodup_middle.1 distinct)).1 (List.mem_append_left _ mem)

theorem fields?_add_item (distinct : names.Nodup) {inside : Gap} {items : List Item} (item : Item)
    (place : names[items.length]? = some name)
    (read : fields? names (.array inside items) = some given) :
    given name = none ∧ fields? names (.array inside (items ++ [item])) =
      some (Function.update given name (some item.value)) := by
  obtain ⟨first, last, rfl, length⟩ := eq_append_of_getElem? place
  obtain ⟨-, rfl⟩ := fields?_array.1 read
  have length' : first.length = (items.map (·.value)).length := by rw [length, List.length_map]
  have fresh := not_mem_keys_zip distinct length'
  have zipped (values : List Spelling) :
      (first ++ name :: last).zip (items.map (·.value) ++ values) =
        first.zip (items.map (·.value)) ++ (name :: last).zip values := List.zip_append length'
  have before := zipped []
  rw [List.append_nil, List.zip_nil_right, List.append_nil] at before
  refine ⟨?_, fields?_array.2 ⟨?_, ?_⟩⟩
  · rw [before, List.lookup_eq_none_iff]
    intro a mem
    have other : name ≠ a.1 := fun same => fresh (List.mem_map.2 ⟨a, mem, same.symm⟩)
    simpa using other
  · simp [length]
  · have added := lookup_middle item.value [] fresh
    rw [List.append_nil] at added
    rw [List.map_append, List.map_singleton, before, zipped, List.zip_cons_cons, List.zip_nil_right]
    exact added.symm

theorem fields?_replaces {old : Spelling} (member : name ∈ names) (distinct : names.Nodup)
    (replaces : Replaces names name old v w w') (read : fields? names w = some given) :
    given name = some old ∧ fields? names w' = some (Function.update given name (some v)) := by
  cases replaces with
  | member inside before m after key value =>
      obtain ⟨_, keyed, once, rfl⟩ := fields?_object.1 read
      obtain ⟨first, last, keys, keys', rfl⟩ := (keyed?_middle key).1 keyed
      have fresh := (nodup_known_middle member first last).1 once
      refine ⟨value ▸ lookup_middle_self m.value last fresh.1.1, fields?_object.2 ⟨_,
        (keyed?_middle (m := { m with value := v }) key).2 ⟨first, last, keys, keys', rfl⟩,
        (nodup_known_middle member first last).2 fresh, ?_⟩⟩
      exact (lookup_replaced v last m.value fresh.1.1).symm
  | item inside before item after place value =>
      obtain ⟨first, last, rfl, length⟩ := eq_append_of_getElem? place
      obtain ⟨fits, rfl⟩ := fields?_array.1 read
      have length' : first.length = (before.map (·.value)).length := by rw [length, List.length_map]
      have fresh := not_mem_keys_zip distinct length'
      have zipped (u : Spelling) : (first ++ name :: last).zip
          ((before ++ { item with value := u } :: after).map (·.value)) =
            first.zip (before.map (·.value)) ++ (name, u) :: last.zip (after.map (·.value)) := by
        rw [List.map_append, List.zip_append length', List.map_cons, List.zip_cons_cons]
      refine ⟨?_, fields?_array.2 ⟨?_, ?_⟩⟩
      · rw [zipped item.value, value]
        exact lookup_middle_self old _ fresh
      · simpa using fits
      · rw [zipped item.value, zipped v]
        exact (lookup_replaced v _ item.value fresh).symm

end Spelling

/-! ## Records -/

namespace Reader.RecordMeaning

open Spelling

variable {ρ : Type} (m : RecordMeaning ρ) {name : String} {v w w' : Spelling} {record : ρ}

theorem value?_addsMember_iff {key : Literal} (unread : ∀ k ∈ m.names, Literal.text? key ≠ some k)
    (adds : AddsMember key w w') :
    m.value? w' = some record ↔ (Literal.text? key).isSome ∧ m.value? w = some record := by
  constructor
  · intro read
    obtain ⟨given, fields, read⟩ := Option.bind_eq_some_iff.1 read
    obtain ⟨text, given', fields', same⟩ := fields?_of_addsMember unread adds fields
    exact ⟨text, by rw [value?, fields', Option.bind_some, m.assemble_congr same, read]⟩
  · rintro ⟨text, read⟩
    obtain ⟨k, text⟩ := Option.isSome_iff_exists.1 text
    obtain ⟨given, fields, read⟩ := Option.bind_eq_some_iff.1 read
    obtain ⟨given', fields', same⟩ :=
      fields?_addsMember text (fun member => unread k member text) adds fields
    rw [value?, fields', Option.bind_some, m.assemble_congr same, read]

theorem value?_replaces {old : Spelling} (member : name ∈ m.names)
    (replaces : Replaces m.names name old v w w') (read : m.value? w = some record) :
    ∃ given, m.assemble given = some record ∧ given name = some old ∧
      m.value? w' = m.assemble (Function.update given name (some v)) := by
  obtain ⟨given, fields, read⟩ := Option.bind_eq_some_iff.1 read
  obtain ⟨present, fields'⟩ := fields?_replaces member m.names_nodup replaces fields
  exact ⟨given, read, present, by rw [value?, fields', Option.bind_some]⟩

theorem value?_add_null {inside : Gap} {items : List Item} {item : Item} (null : item.value = .null)
    (fits : items.length < m.names.length) (read : m.value? (.array inside items) = some record) :
    m.value? (.array inside (items ++ [item])) = some record := by
  obtain ⟨given, fields, read⟩ := Option.bind_eq_some_iff.1 read
  have place := List.getElem?_eq_getElem fits
  obtain ⟨fresh, fields'⟩ := fields?_add_item m.names_nodup item place fields
  obtain ⟨f, mem, name⟩ := List.mem_map.1 (List.getElem_mem fits)
  rw [value?, fields', Option.bind_some, null, ← name, m.assemble_null f mem (name ▸ fresh), read]

theorem value?_fill {inside : Gap} {items filling : List Item}
    (nulls : ∀ item ∈ filling, item.value = .null)
    (fits : (items ++ filling).length ≤ m.names.length)
    (read : m.value? (.array inside items) = some record) :
    m.value? (.array inside (items ++ filling)) = some record := by
  induction filling generalizing items with
  | nil => rwa [List.append_nil]
  | cons item filling ih =>
      rw [List.forall_mem_cons] at nulls
      rw [List.append_cons] at fits ⊢
      refine ih nulls.2 fits (m.value?_add_null nulls.1 ?_ read)
      simp only [List.length_append, List.length_singleton] at fits
      omega

theorem value?_sets (member : name ∈ m.names) (sets : Sets m.names name v w w')
    (read : m.value? w = some record) :
    ∃ given, m.assemble given = some record ∧
      m.value? w' = m.assemble (Function.update given name (some v)) := by
  cases sets with
  | replaces old replaces =>
      obtain ⟨given, assembled, -, eq⟩ := m.value?_replaces member replaces read
      exact ⟨given, assembled, eq⟩
  | adds inside before added after key value fresh =>
      obtain ⟨given, fields, read⟩ := Option.bind_eq_some_iff.1 read
      have fields' := fields?_add_member member key fresh fields
      exact ⟨given, read, by rw [value?, fields', Option.bind_some, value]⟩
  | appends inside items filling item nulls place value =>
      have fits := (List.getElem?_eq_some_iff.1 place).1
      have filled := m.value?_fill nulls fits.le read
      obtain ⟨given, fields, assembled⟩ := Option.bind_eq_some_iff.1 filled
      obtain ⟨-, fields'⟩ := fields?_add_item m.names_nodup item place fields
      exact ⟨given, assembled, by rw [value?, fields', Option.bind_some, value]⟩

end Reader.RecordMeaning

end LatencyGate.Json
