import Mathlib
import LatencyGate.Proofs.Json.Edits

namespace LatencyGate.Json.Spelling

def named (k : String) (members : List Member) : List Member :=
  members.filter fun m => Literal.text? m.key = some k

variable {k : String} {m : Member} {members : List Member}

theorem mem_named : m ∈ named k members ↔ m ∈ members ∧ Literal.text? m.key = some k := by
  rw [named, List.mem_filter, decide_eq_true_eq]

theorem named_cons_of_key (key : Literal.text? m.key = some k) :
    named k (m :: members) = m :: named k members :=
  List.filter_cons_of_pos (decide_eq_true key)

theorem named_cons_of_other (other : Literal.text? m.key ≠ some k) :
    named k (m :: members) = named k members :=
  List.filter_cons_of_neg (by rwa [decide_eq_true_eq])

theorem exists_split_of_named (twice : 2 ≤ (named k members).length) :
    ∃ before m after, members = before ++ m :: after ∧ Literal.text? m.key = some k ∧
      ∃ other ∈ before, Literal.text? other.key = some k := by
  match both : named k members, twice with
  | first :: second :: _, _ =>
      obtain ⟨before, later, rfl, -, key, others⟩ := List.filter_eq_cons_iff.1 both
      obtain ⟨between, after, rfl, -, key', -⟩ := List.filter_eq_cons_iff.1 others
      exact ⟨before ++ first :: between, second, after, by simp, of_decide_eq_true key',
        first, by simp, of_decide_eq_true key⟩

theorem given_eq_none_of_named {names : List String} {inside : Gap}
    {given : String → Option Spelling} (read : fields? names (.object inside members) = some given)
    (missing : named k members = []) : given k = none := by
  obtain ⟨keyed, keys, -, rfl⟩ := fields?_object.1 read
  refine List.lookup_eq_none_iff.2 fun a mem => bne_iff_ne.2 ?_
  rintro rfl
  obtain ⟨m, mem, key⟩ := key_mem_of_keyed? keys (List.mem_map.2 ⟨a, mem, rfl⟩)
  have : m ∈ named a.1 members := mem_named.2 ⟨mem, key⟩
  rw [missing] at this
  cases this

theorem natural?_of_value? {levels : Nat} {v : Spelling} {j : Json}
    (read : value? levels v = some j) : j.natural? = natural? v := by
  cases v with
  | null | bool =>
      rw [value?] at read
      cases read
      rfl
  | number n =>
      rw [value?] at read
      obtain ⟨number, eq, rfl⟩ := Option.map_eq_some_iff.1 read
      rw [natural?, eq]
      cases number <;> rfl
  | string l =>
      rw [value?] at read
      obtain ⟨s, -, rfl⟩ := Option.map_eq_some_iff.1 read
      rfl
  | array inside items | object inside members =>
      cases levels with
      | zero =>
          rw [value?] at read
          cases read
      | succ levels =>
          rw [value?] at read
          obtain ⟨js, -, rfl⟩ := Option.map_eq_some_iff.1 read
          rfl

theorem bind_natural?_value? (levels : Nat) (v : Spelling) :
    (value? levels v).bind Json.natural? = natural? v := by
  cases value : value? levels v with
  | some j => exact natural?_of_value? value
  | none =>
      cases v with
      | number n =>
          rw [value?, Option.map_eq_none_iff] at value
          rw [natural?, value]
          rfl
      | _ => rfl

/-- Of the members with a key the last one counts; without any it is what was there before. -/
theorem lookup_foldl_values {meaning : Spelling → Option Json} {keyed : List (String × Spelling)}
    {values held : List (String × Json)} (keys : keyed? members = some keyed)
    (mapped : keyed.mapM (fun (k, v) => (meaning v).map (k, ·)) = some values) :
    (values.foldl (fun object (key, value) => setMember key value object) held).lookup k =
      (named k members).getLast?.elim (held.lookup k) fun m => meaning m.value := by
  induction members generalizing keyed values held with
  | nil =>
      cases keys
      cases mapped
      rfl
  | cons m members ih =>
      rw [keyed?_cons] at keys
      obtain ⟨name, text, keys⟩ := Option.bind_eq_some_iff.1 keys
      obtain ⟨rest, others, rfl⟩ := Option.map_eq_some_iff.1 keys
      rw [mapM?_cons] at mapped
      obtain ⟨_, first, mapped⟩ := Option.bind_eq_some_iff.1 mapped
      obtain ⟨j, value, rfl⟩ := Option.map_eq_some_iff.1 first
      obtain ⟨later, read, rfl⟩ := Option.map_eq_some_iff.1 mapped
      rw [List.foldl_cons, ih others read, lookup_setMember]
      -- A member with this key replaces what was held, unless a later one does.
      by_cases here : k = name
      · rw [named_cons_of_key (by rw [text, here]), List.getLast?_cons, if_pos here, ← value]
        cases (named k members).getLast? <;> rfl
      · rw [named_cons_of_other (by rw [text]; exact fun same => here (Option.some.inj same).symm),
          if_neg here]

def lastMember? (k : String) : Spelling → Option Spelling
  | .object _ members => (named k members).getLast?.map (·.value)
  | _ => none

theorem member?_of_value? {levels : Nat} {v : Spelling} {j : Json}
    (read : value? levels v = some j) (k : String) :
    j.member? k = (lastMember? k v).bind (value? (levels - 1)) := by
  cases v with
  | null | bool =>
      rw [value?] at read
      cases read
      rfl
  | number | string =>
      rw [value?] at read
      obtain ⟨_, -, rfl⟩ := Option.map_eq_some_iff.1 read
      rfl
  | array inside items =>
      cases levels with
      | zero =>
          rw [value?] at read
          cases read
      | succ levels =>
          rw [value?] at read
          obtain ⟨_, -, rfl⟩ := Option.map_eq_some_iff.1 read
          rfl
  | object inside members =>
      cases levels with
      | zero =>
          rw [value?] at read
          cases read
      | succ levels =>
          rw [value?] at read
          obtain ⟨values, made, rfl⟩ := Option.map_eq_some_iff.1 read
          obtain ⟨keyed, keys, mapped⟩ := Option.bind_eq_some_iff.1 made
          refine (lookup_foldl_values keys mapped).trans ?_
          rw [lastMember?]
          cases (named k members).getLast? <;> rfl

theorem natural?_member?_of_value? {levels : Nat} {v : Spelling} {j : Json}
    (read : value? levels v = some j) (k : String) :
    (j.member? k).bind Json.natural? = (lastMember? k v).bind natural? := by
  rw [member?_of_value? read, Option.bind_assoc]
  exact Option.bind_congr fun u _ => bind_natural?_value? (levels - 1) u

end LatencyGate.Json.Spelling
