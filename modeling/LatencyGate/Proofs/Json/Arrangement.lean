import Mathlib
import LatencyGate.Json.Basic

namespace LatencyGate.Json

def Number.IsInteger : Number → Prop
  | .float _ => False
  | _ => True

mutual

def Everywhere (number : Number → Prop) (keys : List String → Prop) : Json → Prop
  | .number n => number n
  | .array items => EveryItem number keys items
  | .object members => keys (members.map Prod.fst) ∧ EveryMember number keys members
  | _ => True

def EveryItem (number : Number → Prop) (keys : List String → Prop) : List Json → Prop
  | [] => True
  | v :: rest => Everywhere number keys v ∧ EveryItem number keys rest

def EveryMember (number : Number → Prop) (keys : List String → Prop) :
    List (String × Json) → Prop
  | [] => True
  | (_, v) :: rest => Everywhere number keys v ∧ EveryMember number keys rest

end

def Integral : Json → Prop := Everywhere Number.IsInteger fun _ => True

theorem Integral.ne_float {v : Json} (integral : v.Integral) (x : Binary64) :
    v ≠ .number (.float x) := by
  rintro rfl
  exact integral

def DistinctKeys : Json → Prop := Everywhere (fun _ => True) List.Nodup

def AscendingKeys : Json → Prop := Everywhere (fun _ => True) (List.Pairwise (· < ·))

mutual

def depth : Json → Nat
  | .array items => itemDepth items + 1
  | .object members => memberDepth members + 1
  | _ => 0

def itemDepth : List Json → Nat
  | [] => 0
  | v :: rest => max (depth v) (itemDepth rest)

def memberDepth : List (String × Json) → Nat
  | [] => 0
  | (_, v) :: rest => max (depth v) (memberDepth rest)

end

mutual

/-- The value with the members of every object in ascending order of their keys. -/
def arranged : Json → Json
  | .array items => .array (arrangedItems items)
  | .object members => ofMembers (arrangedMembers members)
  | v => v

def arrangedItems : List Json → List Json
  | [] => []
  | v :: rest => arranged v :: arrangedItems rest

def arrangedMembers : List (String × Json) → List (String × Json)
  | [] => []
  | (k, v) :: rest => (k, arranged v) :: arrangedMembers rest

end

theorem keys_arrangedMembers (members : List (String × Json)) :
    (arrangedMembers members).map Prod.fst = members.map Prod.fst := by
  induction members with
  | nil => rfl
  | cons member rest ih =>
      obtain ⟨k, v⟩ := member
      simp only [arrangedMembers, List.map_cons, ih]

theorem lookup_arrangedMembers (key : String) (members : List (String × Json)) :
    (arrangedMembers members).lookup key = (members.lookup key).map arranged := by
  induction members with
  | nil => rfl
  | cons member rest ih =>
      obtain ⟨k, v⟩ := member
      simp only [arrangedMembers, List.lookup_cons, ih]
      split <;> rfl

theorem setMember_last {key : String} {value : Json} {members : List (String × Json)}
    (above : ∀ k ∈ members.map Prod.fst, k < key) :
    setMember key value members = members ++ [(key, value)] := by
  induction members with
  | nil => rfl
  | cons member rest ih =>
      obtain ⟨k, v⟩ := member
      have below : k < key := above k List.mem_cons_self
      rw [setMember, if_neg below.ne', if_neg (lt_asymm below), List.cons_append,
        ih fun l member => above l (List.mem_cons_of_mem _ member)]

theorem foldl_setMember_ascending {members held : List (String × Json)}
    (ascending : ((held ++ members).map Prod.fst).Pairwise (· < ·)) :
    members.foldl (fun object (key, value) => setMember key value object) held =
      held ++ members := by
  induction members generalizing held with
  | nil => rw [List.foldl_nil, List.append_nil]
  | cons member rest ih =>
      obtain ⟨k, v⟩ := member
      have above : ∀ l ∈ held.map Prod.fst, l < k := by
        rw [List.map_append, List.pairwise_append] at ascending
        exact fun l member => ascending.2.2 l member k List.mem_cons_self
      have regrouped : held ++ [(k, v)] ++ rest = held ++ (k, v) :: rest := by simp
      rw [← regrouped] at ascending ⊢
      rw [← ih ascending, ← setMember_last above]
      rfl

theorem ofMembers_ascending {members : List (String × Json)}
    (ascending : (members.map Prod.fst).Pairwise (· < ·)) : ofMembers members = .object members :=
  congrArg Json.object (foldl_setMember_ascending ascending)

mutual

theorem arranged_eq_self : ∀ v : Json, v.AscendingKeys → v.arranged = v
  | .null, _ | .bool _, _ | .number _, _ | .string _, _ => rfl
  | .array items, ascending => congrArg Json.array (arrangedItems_eq_self items ascending)
  | .object members, ⟨keys, ascending⟩ => by
      rw [arranged, arrangedMembers_eq_self members ascending, ofMembers_ascending keys]

theorem arrangedItems_eq_self : ∀ items : List Json,
    EveryItem (fun _ => True) (List.Pairwise (· < ·)) items → arrangedItems items = items
  | [], _ => rfl
  | v :: rest, ⟨first, others⟩ => by
      rw [arrangedItems, arranged_eq_self v first, arrangedItems_eq_self rest others]

theorem arrangedMembers_eq_self : ∀ members : List (String × Json),
    EveryMember (fun _ => True) (List.Pairwise (· < ·)) members → arrangedMembers members = members
  | [], _ => rfl
  | (k, v) :: rest, ⟨first, others⟩ => by
      rw [arrangedMembers, arranged_eq_self v first, arrangedMembers_eq_self rest others]

end

theorem lookup_member {α : Type} (k key : String) (value : α) (rest : List (String × α)) :
    ((key, value) :: rest).lookup k = if k = key then some value else rest.lookup k := by
  by_cases same : k = key
  · simp [same]
  · simp [List.lookup_cons, beq_eq_false_iff_ne.2 same, same]

theorem lookup_setMember (k key : String) (value : Json) (members : List (String × Json)) :
    (setMember key value members).lookup k =
      if k = key then some value else members.lookup k := by
  induction members with
  | nil => exact lookup_member k key value []
  | cons member rest ih =>
      obtain ⟨l, v⟩ := member
      rw [setMember]
      split
      · rename_i replaced
        subst replaced
        by_cases same : k = key <;> simp only [lookup_member, same, ↓reduceIte]
      split
      · rw [lookup_member]
      · rename_i other _
        rw [lookup_member, lookup_member, ih]
        by_cases here : k = l
        · subst here
          rw [if_pos rfl, if_pos rfl, if_neg (Ne.symm other)]
        · rw [if_neg here, if_neg here]

theorem lookup_foldl_setMember (k : String) {members held : List (String × Json)}
    (distinct : (members.map Prod.fst).Nodup) :
    (members.foldl (fun object (key, value) => setMember key value object) held).lookup k =
      (members.lookup k).or (held.lookup k) := by
  induction members generalizing held with
  | nil => rfl
  | cons member rest ih =>
      obtain ⟨l, v⟩ := member
      obtain ⟨fresh, distinct⟩ := List.nodup_cons.1 distinct
      change List.lookup k (List.foldl _ (setMember l v held) rest) = _
      rw [ih distinct, lookup_setMember, lookup_member]
      by_cases here : k = l
      · have absent : rest.lookup k = none := by
          rw [List.lookup_eq_none_iff]
          intro other mem
          refine bne_iff_ne.2 fun same => fresh ?_
          rw [← here, same]
          exact List.mem_map.2 ⟨other, mem, rfl⟩
        rw [absent, if_pos here, if_pos here]
        rfl
      · rw [if_neg here, if_neg here]

theorem member?_ofMembers {members : List (String × Json)} (distinct : (members.map Prod.fst).Nodup)
    (key : String) : (ofMembers members).member? key = members.lookup key := by
  change List.lookup key (List.foldl _ _ _) = _
  rw [lookup_foldl_setMember key distinct]
  exact Option.or_none

theorem member?_arranged (key : String) {v : Json} (distinct : v.DistinctKeys) :
    v.arranged.member? key = (v.member? key).map arranged := by
  cases v with
  | object members =>
      have keys : ((arrangedMembers members).map Prod.fst).Nodup := by
        rw [keys_arrangedMembers]
        exact distinct.1
      change List.lookup key (List.foldl _ _ _) = (members.lookup key).map arranged
      rw [lookup_foldl_setMember key keys, lookup_arrangedMembers]
      exact Option.or_none
  | _ => rfl

section
variable {key k : String} {value v : Json} {members : List (String × Json)}

theorem mem_keys_setMember (member : k ∈ (setMember key value members).map Prod.fst) :
    k = key ∨ k ∈ members.map Prod.fst := by
  induction members with
  | nil => exact .inl (List.mem_singleton.1 member)
  | cons first rest ih =>
      obtain ⟨l, v⟩ := first
      rw [setMember] at member
      split at member
      · exact (List.mem_cons.1 member).imp_right (List.mem_cons_of_mem l)
      split at member
      · exact List.mem_cons.1 member
      · rcases List.mem_cons.1 member with here | behind
        · exact .inr (here ▸ List.mem_cons_self)
        · exact (ih behind).imp_right (List.mem_cons_of_mem l)

theorem setMember_ascending (ascending : (members.map Prod.fst).Pairwise (· < ·)) :
    ((setMember key value members).map Prod.fst).Pairwise (· < ·) := by
  induction members with
  | nil => exact List.pairwise_singleton ..
  | cons first rest ih =>
      obtain ⟨l, v⟩ := first
      obtain ⟨above, others⟩ := List.pairwise_cons.1 ascending
      rw [setMember]
      split
      · rename_i same
        rwa [same]
      split
      · rename_i below
        refine List.pairwise_cons.2 ⟨fun k member => ?_, ascending⟩
        rcases List.mem_cons.1 member with rfl | member
        · exact below
        · exact below.trans (above k member)
      · rename_i other notBelow
        refine List.pairwise_cons.2 ⟨fun k member => ?_, ih others⟩
        rcases mem_keys_setMember member with rfl | member
        · exact lt_of_le_of_ne (not_lt.1 notBelow) (Ne.symm other)
        · exact above k member

theorem everyMember_setMember {number : Number → Prop} {keys : List String → Prop}
    (first : Everywhere number keys value) (every : EveryMember number keys members) :
    EveryMember number keys (setMember key value members) := by
  induction members with
  | nil => exact ⟨first, trivial⟩
  | cons member rest ih =>
      obtain ⟨here, others⟩ := every
      rw [setMember]
      split
      · exact ⟨first, others⟩
      split
      · exact ⟨first, here, others⟩
      · exact ⟨here, ih others⟩

theorem everyMember_append {number : Number → Prop} {keys : List String → Prop}
    {members' : List (String × Json)} (every : EveryMember number keys members)
    (every' : EveryMember number keys members') : EveryMember number keys (members ++ members') := by
  induction members with
  | nil => exact every'
  | cons member rest ih => exact ⟨every.1, ih every.2⟩

theorem everywhere_ofMembers {number : Number → Prop}
    (every : EveryMember number (List.Pairwise (· < ·)) members) :
    Everywhere number (List.Pairwise (· < ·)) (ofMembers members) := by
  have kept (held : List (String × Json)) (ascending : (held.map Prod.fst).Pairwise (· < ·))
      (heldEvery : EveryMember number (List.Pairwise (· < ·)) held) :
      Everywhere number (List.Pairwise (· < ·))
        (.object (members.foldl (fun object (key, value) => setMember key value object) held)) := by
    induction members generalizing held with
    | nil => exact ⟨ascending, heldEvery⟩
    | cons member rest ih =>
        obtain ⟨here, others⟩ := every
        exact ih others _ (setMember_ascending ascending) (everyMember_setMember here heldEvery)
  exact kept [] List.Pairwise.nil trivial

end

theorem natural?_arranged (v : Json) : v.arranged.natural? = v.natural? := by
  cases v <;> rfl

end LatencyGate.Json
