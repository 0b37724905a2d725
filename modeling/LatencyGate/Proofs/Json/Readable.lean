import Mathlib
import LatencyGate.Proofs.Json.Meaning

namespace LatencyGate.Json.Spelling

inductive Readable : Spelling → Prop
  | null : Readable .null
  | bool (b : Bool) : Readable (.bool b)
  | number {n : Numeral} (fits : n.number?.isSome) : Readable (.number n)
  | string {l : Literal} (text : (Literal.text? l).isSome) : Readable (.string l)
  | array {inside : Gap} {items : List Item} (values : ∀ item ∈ items, Readable item.value) :
      Readable (.array inside items)
  | object {inside : Gap} {members : List Member}
    (keys : ∀ m ∈ members, (Literal.text? m.key).isSome) (values : ∀ m ∈ members, Readable m.value) :
      Readable (.object inside members)

theorem readable_array_iff {inside : Gap} {items : List Item} :
    Readable (.array inside items) ↔ ∀ item ∈ items, Readable item.value :=
  ⟨fun | .array values => values, .array⟩

theorem readable_object_iff {inside : Gap} {members : List Member} :
    Readable (.object inside members) ↔ (∀ m ∈ members, (Literal.text? m.key).isSome) ∧
      ∀ m ∈ members, Readable m.value :=
  ⟨fun | .object keys values => ⟨keys, values⟩, fun ⟨keys, values⟩ => .object keys values⟩

mutual

def depth : Spelling → Nat
  | .array _ items => itemDepth items + 1
  | .object _ members => memberDepth members + 1
  | _ => 0

def itemDepth : List (ItemOf Spelling) → Nat
  | [] => 0
  | ⟨_, v, _⟩ :: items => max (depth v) (itemDepth items)

def memberDepth : List (MemberOf Spelling) → Nat
  | [] => 0
  | ⟨_, _, _, _, v, _⟩ :: members => max (depth v) (memberDepth members)

end

theorem itemDepth_le_iff {n : Nat} {items : List Item} :
    itemDepth items ≤ n ↔ ∀ item ∈ items, depth item.value ≤ n := by
  induction items with
  | nil => simp [itemDepth]
  | cons item items ih => rw [itemDepth, max_le_iff, ih, List.forall_mem_cons]

theorem memberDepth_le_iff {n : Nat} {members : List Member} :
    memberDepth members ≤ n ↔ ∀ m ∈ members, depth m.value ≤ n := by
  induction members with
  | nil => simp [memberDepth]
  | cons m members ih => rw [memberDepth, max_le_iff, ih, List.forall_mem_cons]

theorem mapM?_isSome_iff {α β : Type} {f : α → Option β} {xs : List α} :
    (xs.mapM f).isSome ↔ ∀ x ∈ xs, (f x).isSome := by
  induction xs with
  | nil => exact iff_of_true rfl nofun
  | cons x xs ih =>
      rw [mapM?_cons, List.forall_mem_cons, ← ih]
      cases f x with
      | none => simp
      | some y => simp

theorem members?_isSome_iff (meaning : Spelling → Option Json) (members : List Member) :
    ((keyed? members).bind fun keyed =>
        keyed.mapM fun (k, v) => (meaning v).map (k, ·)).isSome ↔
      (∀ m ∈ members, (Literal.text? m.key).isSome) ∧ ∀ m ∈ members, (meaning m.value).isSome := by
  have keys : (keyed? members).isSome ↔ ∀ m ∈ members, (Literal.text? m.key).isSome := by
    simp only [keyed?, mapM?_isSome_iff, Option.isSome_map]
  rw [← keys]
  cases read : keyed? members with
  | none => simp
  | some keyed =>
      have values : (∀ m ∈ members, (meaning m.value).isSome) ↔
          ∀ v ∈ keyed.map Prod.snd, (meaning v).isSome := by
        rw [← map_value_of_keyed? read, List.forall_mem_map]
      rw [values, List.forall_mem_map, Option.bind_some, mapM?_isSome_iff]
      simp

theorem value?_isSome_iff_of_isScalar {v : Spelling} (scalar : IsScalar v) (levels : Nat) :
    (value? levels v).isSome ↔ depth v ≤ levels ∧ Readable v := by
  cases v with
  | array => exact scalar.elim
  | object => exact scalar.elim
  | null => simp [value?, depth, Readable.null]
  | bool b => simp [value?, depth, Readable.bool]
  | number n =>
      rw [value?, Option.isSome_map]
      exact ⟨fun fits => ⟨levels.zero_le, .number fits⟩, fun | ⟨_, .number fits⟩ => fits⟩
  | string l =>
      rw [value?, Option.isSome_map]
      exact ⟨fun text => ⟨levels.zero_le, .string text⟩, fun | ⟨_, .string text⟩ => text⟩

theorem value?_isSome_iff (levels : Nat) (v : Spelling) :
    (value? levels v).isSome ↔ depth v ≤ levels ∧ Readable v := by
  induction levels generalizing v with
  | zero =>
      cases v with
      | array => simp [value?, depth]
      | object => simp [value?, depth]
      | _ => exact value?_isSome_iff_of_isScalar (by trivial) 0
  | succ levels ih =>
      cases v with
      | array inside items =>
          rw [value?, Option.isSome_map, mapM?_isSome_iff, depth, Nat.succ_le_succ_iff,
            itemDepth_le_iff, readable_array_iff]
          simp only [ih, forall₂_and]
      | object inside members =>
          rw [value?, Option.isSome_map, members?_isSome_iff, depth, Nat.succ_le_succ_iff,
            memberDepth_le_iff, readable_object_iff]
          simp only [ih, forall₂_and]
          exact and_left_comm
      | _ => exact value?_isSome_iff_of_isScalar (by trivial) _

theorem optional?_isSome_iff (levels : Nat) (v : Spelling) :
    (optional? (value? levels) (some v)).isSome ↔ v.depth ≤ levels ∧ v.Readable := by
  by_cases null : v = .null
  · rw [null]
    exact iff_of_true rfl ⟨levels.zero_le, .null⟩
  · rw [optional?_some _ null, Option.isSome_map, value?_isSome_iff]

end LatencyGate.Json.Spelling
