import Mathlib
import LatencyGate.Text
import LatencyGate.Decimal

namespace LatencyGate

structure Grouped (cs text : List Char) : Prop where
  erased : text.filter (· ≠ ',') = cs
  groups : ∃ first rest, text.splitOn ',' = first :: rest ∧ 1 ≤ first.length ∧ first.length ≤ 3 ∧
    ∀ group ∈ rest, group.length = 3
  head : text.head? ≠ some ','
  last : text.getLast? ≠ some ','

theorem flatten_modifyHead_cons {α : Type} (x : α) {groups : List (List α)}
    (nonempty : groups ≠ []) : (groups.modifyHead (x :: ·)).flatten = x :: groups.flatten := by
  cases groups with
  | nil => exact absurd rfl nonempty
  | cons first rest => rfl

theorem flatten_splitOn_comma (text : List Char) :
    (text.splitOn ',').flatten = text.filter (· ≠ ',') := by
  induction text with
  | nil => rfl
  | cons c text ih =>
      rw [List.splitOn_cons_eq_if_modifyHead]
      by_cases comma : c = ','
      · rw [if_pos (beq_iff_eq.2 comma), List.flatten_cons, List.nil_append, ih,
          List.filter_cons_of_neg (by simpa using comma)]
      · rw [if_neg (by simpa using comma), flatten_modifyHead_cons c (List.splitOn_ne_nil _ _), ih,
          List.filter_cons_of_pos (by simpa using comma)]

theorem Grouped.map_length_splitOn {cs text : List Char} (grouped : Grouped cs text) :
    (text.splitOn ',').map List.length =
      ((cs.length - 1) % 3 + 1) :: List.replicate ((cs.length - 1) / 3) 3 := by
  obtain ⟨first, rest, split, positive, short, whole⟩ := grouped.groups
  have whole : rest.map List.length = List.replicate rest.length 3 :=
    List.eq_replicate_iff.2 ⟨List.length_map _, List.forall_mem_map.2 whole⟩
  have total : cs.length = first.length + rest.length * 3 := by
    rw [← grouped.erased, ← flatten_splitOn_comma, split, List.length_flatten, List.map_cons,
      List.sum_cons, whole, List.sum_replicate, smul_eq_mul]
  rw [split, List.map_cons, whole]
  congr 2 <;> omega

theorem Grouped.unique {cs text text' : List Char} (grouped : Grouped cs text)
    (grouped' : Grouped cs text') : text = text' := by
  have groups : text.splitOn ',' = text'.splitOn ',' := by
    refine List.eq_iff_flatten_eq.2 ⟨?_, ?_⟩
    · rw [flatten_splitOn_comma, flatten_splitOn_comma, grouped.erased, grouped'.erased]
    · rw [grouped.map_length_splitOn, grouped'.map_length_splitOn]
  calc text
    _ = [','].intercalate (text.splitOn ',') := (List.intercalate_splitOn ',').symm
    _ = [','].intercalate (text'.splitOn ',') := by rw [groups]
    _ = text' := List.intercalate_splitOn ','

section
variable {c : Char} {cs rest : List Char}

theorem groupByThree_cons_of_boundary (more : rest ≠ []) (boundary : rest.length % 3 = 0) :
    groupByThree (c :: rest) = c :: ',' :: groupByThree rest := by
  rw [groupByThree, if_pos ⟨more, boundary⟩]

theorem groupByThree_cons_of_inside (inside : rest.length % 3 ≠ 0) :
    groupByThree (c :: rest) = c :: groupByThree rest := by
  rw [groupByThree, if_neg fun boundary => inside boundary.2]

theorem filter_groupByThree (plain : ',' ∉ cs) : (groupByThree cs).filter (· ≠ ',') = cs := by
  induction cs with
  | nil => rfl
  | cons c rest ih =>
      rw [List.mem_cons, not_or] at plain
      have digit : c ≠ ',' := Ne.symm plain.1
      have kept (text : List Char) : (c :: text).filter (· ≠ ',') = c :: text.filter (· ≠ ',') :=
        List.filter_cons_of_pos (by simpa using digit)
      rw [groupByThree]
      split
      · rw [kept, List.filter_cons_of_neg (by simp), ih plain.2]
      · rw [kept, ih plain.2]

theorem splitOn_groupByThree (plain : ',' ∉ cs) (nonempty : cs ≠ []) :
    ∃ first rest, (groupByThree cs).splitOn ',' = first :: rest ∧
      first.length = (cs.length - 1) % 3 + 1 ∧ ∀ group ∈ rest, group.length = 3 := by
  induction cs with
  | nil => exact absurd rfl nonempty
  | cons c cs ih =>
      rw [List.mem_cons, not_or] at plain
      have digit : ¬(c == ',') = true := by simpa using Ne.symm plain.1
      rcases eq_or_ne cs [] with rfl | more
      · have single : groupByThree [c] = [c] := rfl
        exact ⟨[c], [], List.splitOn_eq_singleton (by simpa [single] using plain.1), rfl, nofun⟩
      obtain ⟨first, rest, split, length, whole⟩ := ih plain.2 more
      have count : 1 ≤ cs.length := List.length_pos_iff.2 more
      rw [List.length_cons, Nat.add_sub_cancel]
      -- The group that was begun is complete where a multiple of three digits is left.
      by_cases boundary : cs.length % 3 = 0
      · refine ⟨[c], first :: rest, ?_, by simp [boundary], ?_⟩
        · rw [groupByThree_cons_of_boundary more boundary, List.splitOn_cons_eq_if_modifyHead,
            if_neg digit, List.splitOn_cons_eq_if_modifyHead, if_pos (beq_self_eq_true ','), split]
          rfl
        · exact List.forall_mem_cons.2 ⟨by omega, whole⟩
      · refine ⟨c :: first, rest, ?_, ?_, whole⟩
        · rw [groupByThree_cons_of_inside boundary, List.splitOn_cons_eq_if_modifyHead,
            if_neg digit, split]
          rfl
        · rw [List.length_cons]
          omega

theorem head?_groupByThree (cs : List Char) : (groupByThree cs).head? = cs.head? := by
  cases cs with
  | nil => rfl
  | cons c rest =>
      rw [groupByThree]
      split <;> rfl

theorem getLast?_groupByThree (cs : List Char) : (groupByThree cs).getLast? = cs.getLast? := by
  induction cs with
  | nil => rfl
  | cons c rest ih =>
      rw [groupByThree]
      split
      · -- What follows the comma is not empty, so the comma is not the last character.
        rename_i boundary
        obtain ⟨d, ds, rfl⟩ := List.exists_cons_of_ne_nil boundary.1
        rw [List.getLast?_cons_cons, List.getLast?_cons, ih, List.getLast?_cons_cons,
          List.getLast?_cons]
        rfl
      · rw [List.getLast?_cons, ih, List.getLast?_cons]

theorem grouped_groupByThree (plain : ',' ∉ cs) (nonempty : cs ≠ []) :
    Grouped cs (groupByThree cs) where
  erased := filter_groupByThree plain
  groups := by
    obtain ⟨first, rest, split, length, whole⟩ := splitOn_groupByThree plain nonempty
    exact ⟨first, rest, split, by omega, by omega, whole⟩
  head comma := plain (List.mem_of_mem_head? (head?_groupByThree cs ▸ comma))
  last comma := plain (List.mem_of_mem_getLast? (getLast?_groupByThree cs ▸ comma))

end

theorem comma_not_mem_digits (n : Nat) : ',' ∉ digits n :=
  fun mem => absurd (isDigit_of_mem_digits mem) (by decide)

theorem toList_groupedDigits (n : Nat) : (groupedDigits n).toList = groupByThree (digits n) := by
  rw [groupedDigits, String.toList_ofList]

theorem grouped_groupedDigits (n : Nat) : Grouped (digits n) (groupedDigits n).toList := by
  rw [toList_groupedDigits]
  exact grouped_groupByThree (comma_not_mem_digits n) (digits_ne_nil n)

theorem groupedDigits_injective : Function.Injective groupedDigits := by
  intro n n' same
  have erased := (grouped_groupedDigits n).erased
  rw [same, (grouped_groupedDigits n').erased] at erased
  rw [← ofDigitChars_digits n, ← erased, ofDigitChars_digits]

theorem grouping_faithful :
    (∀ cs : List Char, cs ≠ [] → (∀ c ∈ cs, c.isDigit = true) →
      ∀ text, Grouped cs text ↔ text = groupByThree cs) ∧
    (∀ n, Grouped (digits n) (groupedDigits n).toList ∧
      Nat.ofDigitChars 10 ((groupedDigits n).toList.filter (· ≠ ',')) 0 = n) ∧
    ∀ n n', n ≠ n' → groupedDigits n ≠ groupedDigits n' := by
  refine ⟨fun cs nonempty digits text => ?_, fun n => ?_, fun n n' => groupedDigits_injective.ne⟩
  · have plain : ',' ∉ cs := fun mem => absurd (digits ',' mem) (by decide)
    have grouped := grouped_groupByThree plain nonempty
    constructor
    · exact fun other => other.unique grouped
    · rintro rfl
      exact grouped
  · have grouped := grouped_groupedDigits n
    exact ⟨grouped, by rw [grouped.erased, ofDigitChars_digits]⟩

theorem grouping_faithful_leading_zeros :
    let cs := "0012345678901234567890123".toList
    (cs ≠ [] ∧ (∀ c ∈ cs, c.isDigit = true) ∧
      Grouped cs "0,012,345,678,901,234,567,890,123".toList) ∧
    (999 ≠ 1000 ∧ groupedDigits 999 ≠ groupedDigits 1000) := by
  intro cs
  obtain ⟨grouped_iff, -, distinct⟩ := grouping_faithful
  have nonempty : cs ≠ [] := by decide
  have digits : ∀ c ∈ cs, c.isDigit = true := List.all_eq_true.1 (by decide)
  exact ⟨⟨nonempty, digits, (grouped_iff cs nonempty digits _).2 (by decide +kernel)⟩, by decide,
    distinct 999 1000 (by decide)⟩

end LatencyGate
