import Mathlib
import LatencyGate.Proofs.Json.Arrangement
import LatencyGate.Proofs.Json.Meaning

namespace LatencyGate.Json

section
variable {α α' β β' : Type}

theorem mapM?_forall₂ {R : α → α' → Prop} {S : β → β' → Prop} {f : α → Option β} {g : α' → Option β'}
    (step : ∀ x x', R x x' → ∀ y, f x = some y → ∃ y', g x' = some y' ∧ S y y') {xs : List α}
    {xs' : List α'} (related : List.Forall₂ R xs xs') {ys : List β} (mapped : xs.mapM f = some ys) :
    ∃ ys', xs'.mapM g = some ys' ∧ List.Forall₂ S ys ys' := by
  induction related generalizing ys with
  | nil =>
      cases mapped
      exact ⟨[], rfl, .nil⟩
  | @cons x x' xs xs' first _ ih =>
      rw [Spelling.mapM?_cons, Option.bind_eq_some_iff] at mapped
      obtain ⟨y, found, mapped⟩ := mapped
      obtain ⟨ys, others, rfl⟩ := Option.map_eq_some_iff.1 mapped
      obtain ⟨y', found', same⟩ := step x x' first y found
      obtain ⟨ys', others', rest⟩ := ih others
      exact ⟨y' :: ys', by rw [Spelling.mapM?_cons, found', others']; rfl, .cons same rest⟩

theorem mapM?_perm {f : α → Option β} {xs xs' : List α} (perm : xs.Perm xs') {ys : List β}
    (mapped : xs.mapM f = some ys) : ∃ ys', xs'.mapM f = some ys' ∧ ys.Perm ys' := by
  induction perm generalizing ys with
  | nil => exact ⟨ys, mapped, .refl ys⟩
  | cons x _ ih =>
      rw [Spelling.mapM?_cons, Option.bind_eq_some_iff] at mapped
      obtain ⟨y, found, mapped⟩ := mapped
      obtain ⟨ys, others, rfl⟩ := Option.map_eq_some_iff.1 mapped
      obtain ⟨ys', others', perm⟩ := ih others
      exact ⟨y :: ys', by rw [Spelling.mapM?_cons, found, others']; rfl, perm.cons y⟩
  | swap x x' xs =>
      simp only [Spelling.mapM?_cons, Option.bind_eq_some_iff, Option.map_eq_some_iff] at mapped
      obtain ⟨y', found', _, ⟨y, found, ys, others, rfl⟩, rfl⟩ := mapped
      refine ⟨y :: y' :: ys, ?_, .swap y y' ys⟩
      rw [Spelling.mapM?_cons, Spelling.mapM?_cons, found, found', others]
      rfl
  | trans _ _ ih ih' =>
      obtain ⟨zs, found, perm⟩ := ih mapped
      obtain ⟨ys', found', perm'⟩ := ih' found
      exact ⟨ys', found', perm.trans perm'⟩

theorem lookup_perm {l l' : List (String × α)} (perm : l.Perm l') (distinct : (l.map Prod.fst).Nodup)
    (k : String) : l.lookup k = l'.lookup k := by
  induction perm with
  | nil => rfl
  | cons x _ ih => rw [lookup_member, lookup_member, ih (List.nodup_cons.1 distinct).2]
  | swap x y l =>
      have other : y.1 ≠ x.1 := fun same =>
        (List.nodup_cons.1 distinct).1 (same ▸ List.mem_cons_self)
      rw [lookup_member, lookup_member, lookup_member, lookup_member]
      by_cases first : k = y.1
      · rw [if_pos first, if_neg (first ▸ other), if_pos first]
      · rw [if_neg first, if_neg first]
  | trans perm _ ih ih' => exact (ih distinct).trans (ih' ((perm.map _).nodup_iff.1 distinct))

end

theorem setMember_cons_of_lt {k m : String} (below : k < m) (v u : Json) (rest : List (String × Json)) :
    setMember k v ((m, u) :: rest) = (k, v) :: (m, u) :: rest := by
  rw [setMember, if_neg below.ne, if_pos below]

theorem setMember_cons_of_gt {k m : String} (above : m < k) (v u : Json) (rest : List (String × Json)) :
    setMember k v ((m, u) :: rest) = (m, u) :: setMember k v rest := by
  rw [setMember, if_neg above.ne', if_neg (lt_asymm above)]

theorem setMember_cons_self (k : String) (v u : Json) (rest : List (String × Json)) :
    setMember k v ((k, u) :: rest) = (k, v) :: rest := by
  rw [setMember, if_pos rfl]

theorem setMember_comm_of_lt {k l : String} (below : k < l) (v w : Json)
    (members : List (String × Json)) :
    setMember k v (setMember l w members) = setMember l w (setMember k v members) := by
  induction members with
  | nil =>
      rw [setMember, setMember, setMember_cons_of_lt below, setMember_cons_of_gt below, setMember]
  | cons member rest ih =>
      obtain ⟨m, u⟩ := member
      rcases lt_trichotomy k m with first | rfl | behind
      · rw [setMember_cons_of_lt first, setMember_cons_of_gt below]
        rcases lt_trichotomy l m with second | rfl | behind
        · rw [setMember_cons_of_lt second, setMember_cons_of_lt below]
        · rw [setMember_cons_self, setMember_cons_of_lt below]
        · rw [setMember_cons_of_gt behind, setMember_cons_of_lt first]
      · rw [setMember_cons_of_gt below, setMember_cons_self, setMember_cons_self,
          setMember_cons_of_gt below]
      · rw [setMember_cons_of_gt (behind.trans below), setMember_cons_of_gt behind,
          setMember_cons_of_gt behind, setMember_cons_of_gt (behind.trans below), ih]

theorem setMember_comm {k l : String} (other : k ≠ l) (v w : Json) (members : List (String × Json)) :
    setMember k v (setMember l w members) = setMember l w (setMember k v members) := by
  rcases lt_or_gt_of_ne other with below | above
  · exact setMember_comm_of_lt below v w members
  · exact (setMember_comm_of_lt above w v members).symm

theorem ofMembers_perm {members members' : List (String × Json)} (perm : members.Perm members')
    (distinct : (members.map Prod.fst).Nodup) : ofMembers members = ofMembers members' := by
  have swap : ∀ x ∈ members, ∀ y ∈ members, ∀ z,
      setMember y.1 y.2 (setMember x.1 x.2 z) = setMember x.1 x.2 (setMember y.1 y.2 z) := by
    intro x hx y hy z
    by_cases same : x.1 = y.1
    · rw [List.inj_on_of_nodup_map distinct hx hy same]
    · exact setMember_comm (Ne.symm same) y.2 x.2 z
  exact congrArg Json.object (perm.foldl_eq' swap [])

/-! ## Respellings -/

namespace Spelling

mutual

/-- The spellings differ in blanks, in escapes and in the order of members only. -/
def Respelled : Spelling → Spelling → Prop
  | .null, .null => True
  | .bool b, .bool b' => b = b'
  | .number n, .number n' => n = n'
  | .string l, .string l' => Literal.content l = Literal.content l'
  | .array _ items, .array _ items' => RespelledItems items items'
  | .object _ members, .object _ members' =>
    ∃ arranged : List (MemberOf Spelling), RespelledMembers members arranged ∧ arranged.Perm members'
  | _, _ => False

def RespelledItems : List (ItemOf Spelling) → List (ItemOf Spelling) → Prop
  | [], [] => True
  | ⟨_, v, _⟩ :: items, item' :: items' => Respelled v item'.value ∧ RespelledItems items items'
  | _, _ => False

def RespelledMembers : List (MemberOf Spelling) → List (MemberOf Spelling) → Prop
  | [], [] => True
  | ⟨_, key, _, _, v, _⟩ :: members, member' :: members' =>
    Literal.content key = Literal.content member'.key ∧ Respelled v member'.value ∧
      RespelledMembers members members'
  | _, _ => False

end

mutual

def DistinctKeys : Spelling → Prop
  | .array _ items => DistinctInItems items
  | .object _ members =>
    (members.map fun m => Literal.text? m.key).Nodup ∧ DistinctInMembers members
  | _ => True

def DistinctInItems : List (ItemOf Spelling) → Prop
  | [] => True
  | ⟨_, v, _⟩ :: items => DistinctKeys v ∧ DistinctInItems items

def DistinctInMembers : List (MemberOf Spelling) → Prop
  | [] => True
  | ⟨_, _, _, _, v, _⟩ :: members => DistinctKeys v ∧ DistinctInMembers members

end

theorem forall₂_of_respelledItems {items items' : List Item} (same : RespelledItems items items') :
    List.Forall₂ (fun i i' => Respelled i.value i'.value) items items' := by
  induction items generalizing items' with
  | nil =>
      cases items' with
      | nil => exact .nil
      | cons => exact same.elim
  | cons item items ih =>
      cases items' with
      | nil => exact same.elim
      | cons item' items' => exact .cons same.1 (ih same.2)

theorem forall₂_of_respelledMembers {members members' : List Member}
    (same : RespelledMembers members members') :
    List.Forall₂ (fun m m' => Literal.content m.key = Literal.content m'.key ∧
      Respelled m.value m'.value) members members' := by
  induction members generalizing members' with
  | nil =>
      cases members' with
      | nil => exact .nil
      | cons => exact same.elim
  | cons member members ih =>
      cases members' with
      | nil => exact same.elim
      | cons member' members' => exact .cons ⟨same.1, same.2.1⟩ (ih same.2.2)

theorem distinct_of_mem_items {items : List Item} (distinct : DistinctInItems items) :
    ∀ item ∈ items, DistinctKeys item.value := by
  induction items with
  | nil => nofun
  | cons item items ih =>
      intro other mem
      rcases List.mem_cons.1 mem with rfl | mem
      · exact distinct.1
      · exact ih distinct.2 other mem

theorem distinct_of_mem_members {members : List Member} (distinct : DistinctInMembers members) :
    ∀ member ∈ members, DistinctKeys member.value := by
  induction members with
  | nil => nofun
  | cons member members ih =>
      intro other mem
      rcases List.mem_cons.1 mem with rfl | mem
      · exact distinct.1
      · exact ih distinct.2 other mem

def Rearranged (keyed keyed' : List (String × Spelling)) : Prop :=
  ∃ arranged, List.Forall₂ (fun a a' => a.1 = a'.1 ∧ Respelled a.2 a'.2) keyed arranged ∧
    arranged.Perm keyed'

theorem keyed?_respelled {members arranged members' : List Member}
    (same : RespelledMembers members arranged) (perm : arranged.Perm members')
    {keyed : List (String × Spelling)} (read : keyed? members = some keyed) :
    ∃ keyed', keyed? members' = some keyed' ∧ Rearranged keyed keyed' := by
  have step (m m' : Member) (same : Literal.content m.key = Literal.content m'.key ∧
      Respelled m.value m'.value) (a : String × Spelling)
      (read : (Literal.text? m.key).map (·, m.value) = some a) :
      ∃ a', (Literal.text? m'.key).map (·, m'.value) = some a' ∧ a.1 = a'.1 ∧ Respelled a.2 a'.2 := by
    obtain ⟨k, text, rfl⟩ := Option.map_eq_some_iff.1 read
    refine ⟨(k, m'.value), ?_, rfl, same.2⟩
    rw [Literal.text?, same.1] at text
    rw [Literal.text?, text]
    rfl
  obtain ⟨between, read', related⟩ :=
    mapM?_forall₂ step (forall₂_of_respelledMembers same) read
  obtain ⟨keyed', read'', perm⟩ := mapM?_perm perm read'
  exact ⟨keyed', read'', between, related, perm⟩

theorem distinct_of_keyed? {members : List Member} {keyed : List (String × Spelling)}
    (read : keyed? members = some keyed)
    (distinct : (members.map fun m => Literal.text? m.key).Nodup) : (keyed.map Prod.fst).Nodup := by
  rw [map_text?_of_keyed? read] at distinct
  exact (List.nodup_map_iff (Option.some_injective String)).1 (by rwa [List.map_map])

theorem distinct_of_mem_keyed {members : List Member} {keyed : List (String × Spelling)}
    (read : keyed? members = some keyed) (distinct : DistinctInMembers members) :
    ∀ a ∈ keyed, DistinctKeys a.2 := by
  have values : ∀ v ∈ members.map (·.value), DistinctKeys v :=
    List.forall_mem_map.2 (distinct_of_mem_members distinct)
  rw [map_value_of_keyed? read] at values
  exact List.forall_mem_map.1 values

/-! ## Values -/

theorem text?_respelled {v v' : Spelling} (same : Respelled v v') : text? v' = text? v := by
  cases v <;> cases v' <;> first | rfl | exact same.elim | skip
  exact congrArg Content.text? same.symm

theorem natural?_respelled {v v' : Spelling} (same : Respelled v v') : natural? v' = natural? v := by
  cases v <;> cases v' <;> first | rfl | exact same.elim | skip
  cases same
  rfl

theorem value?_scalar_respelled {v v' : Spelling} (scalar : IsScalar v) (same : Respelled v v')
    (levels : Nat) : value? levels v' = value? levels v := by
  cases v <;> cases v' <;> first | rfl | exact same.elim | exact scalar.elim | skip
  · cases same
    rfl
  · cases same
    rfl
  · rw [value?, value?, Literal.text?, Literal.text?, show Literal.content _ = _ from same]

section
variable {meaning : Spelling → Option Json} {keyed keyed' : List (String × Spelling)}
  {values : List (String × Json)}

theorem keys_of_mapM (mapped : keyed.mapM (fun (k, v) => (meaning v).map (k, ·)) = some values) :
    values.map Prod.fst = keyed.map Prod.fst := by
  induction keyed generalizing values with
  | nil =>
      cases mapped
      rfl
  | cons a keyed ih =>
      rw [mapM?_cons, Option.bind_eq_some_iff] at mapped
      obtain ⟨b, found, mapped⟩ := mapped
      obtain ⟨rest, others, rfl⟩ := Option.map_eq_some_iff.1 mapped
      obtain ⟨j, -, rfl⟩ := Option.map_eq_some_iff.1 found
      rw [List.map_cons, List.map_cons, ih others]

theorem mapM_rearranged
    (step : ∀ v v' j, DistinctKeys v → Respelled v v' → meaning v = some j → meaning v' = some j)
    (distinct : ∀ a ∈ keyed, DistinctKeys a.2) (related : Rearranged keyed keyed')
    (mapped : keyed.mapM (fun (k, v) => (meaning v).map (k, ·)) = some values) :
    ∃ values', keyed'.mapM (fun (k, v) => (meaning v).map (k, ·)) = some values' ∧
      values.Perm values' := by
  obtain ⟨arranged, related, perm⟩ := related
  have one (a a' : String × Spelling)
      (same : DistinctKeys a.2 ∧ a.1 = a'.1 ∧ Respelled a.2 a'.2) (b : String × Json)
      (read : (meaning a.2).map (a.1, ·) = some b) :
      ∃ b', (meaning a'.2).map (a'.1, ·) = some b' ∧ b = b' := by
    obtain ⟨j, found, rfl⟩ := Option.map_eq_some_iff.1 read
    exact ⟨(a.1, j), by rw [step _ _ j same.1 same.2.2 found, same.2.1]; rfl, rfl⟩
  obtain ⟨values', mapped', equal⟩ :=
    mapM?_forall₂ one ((List.forall₂_and_left _ _).2 ⟨distinct, related⟩) mapped
  rw [List.forall₂_eq_eq_eq] at equal
  rw [equal]
  exact mapM?_perm perm mapped'

end

theorem value?_respelled {levels : Nat} {v v' : Spelling} (distinct : DistinctKeys v)
    (same : Respelled v v') {j : Json} (read : value? levels v = some j) :
    value? levels v' = some j := by
  induction levels generalizing v v' j with
  | zero =>
      cases v with
      | array => cases read
      | object => cases read
      | _ => exact (value?_scalar_respelled (by trivial) same 0).trans read
  | succ levels ih =>
      cases v with
      | array inside items =>
          cases v' with
          | array inside' items' =>
              obtain ⟨values, mapped, rfl⟩ := Option.map_eq_some_iff.1 read
              obtain ⟨values', mapped', equal⟩ := mapM?_forall₂ (S := Eq)
                (fun _ _ same j read => ⟨j, ih same.1 same.2 read, rfl⟩)
                ((List.forall₂_and_left _ _).2
                  ⟨distinct_of_mem_items distinct, forall₂_of_respelledItems same⟩) mapped
              rw [List.forall₂_eq_eq_eq] at equal
              exact Option.map_eq_some_iff.2 ⟨values', mapped', by rw [equal]⟩
          | _ => exact same.elim
      | object inside members =>
          cases v' with
          | object inside' members' =>
              obtain ⟨values, found, rfl⟩ := Option.map_eq_some_iff.1 read
              obtain ⟨keyed, keys, mapped⟩ := Option.bind_eq_some_iff.1 found
              obtain ⟨arranged, respelled, perm⟩ := same
              obtain ⟨keyed', keys', related⟩ := keyed?_respelled respelled perm keys
              obtain ⟨values', mapped', perm⟩ := mapM_rearranged
                (fun _ _ _ distinct same read => ih distinct same read)
                (distinct_of_mem_keyed keys distinct.2) related mapped
              -- The order in which members are set matters only if one replaces another.
              have once : (values.map Prod.fst).Nodup := by
                rw [keys_of_mapM mapped]
                exact distinct_of_keyed? keys distinct.1
              rw [value?, keys', ofMembers_perm perm once]
              exact congrArg (Option.map ofMembers) mapped'
          | _ => exact same.elim
      | _ => exact (value?_scalar_respelled (by trivial) same _).trans read

/-! ## Fields -/

theorem map_fst_known (names : List String) (keyed : List (String × Spelling)) :
    (known names keyed).map Prod.fst = (keyed.map Prod.fst).filter names.contains := by
  rw [known, List.filter_map]
  rfl

theorem lookup_known {names : List String} {name : String} (member : name ∈ names)
    (keyed : List (String × Spelling)) : (known names keyed).lookup name = keyed.lookup name := by
  induction keyed with
  | nil => rfl
  | cons a keyed ih =>
      rw [lookup_member, known, List.filter_cons]
      split
      · rw [lookup_member]
        exact if_congr Iff.rfl rfl ih
      · rename_i other
        have here : name ≠ a.1 := fun same => other (List.contains_iff_mem.2 (same ▸ member))
        rw [if_neg here]
        exact ih

theorem keys_respelled {keyed keyed' : List (String × Spelling)}
    (related : List.Forall₂ (fun a a' => a.1 = a'.1 ∧ Respelled a.2 a'.2) keyed keyed') :
    keyed.map Prod.fst = keyed'.map Prod.fst := by
  induction related with
  | nil => rfl
  | cons same _ ih => rw [List.map_cons, List.map_cons, same.1, ih]

theorem lookup_respelled {keyed keyed' : List (String × Spelling)}
    (related : List.Forall₂ (fun a a' => a.1 = a'.1 ∧ Respelled a.2 a'.2) keyed keyed')
    (name : String) : Option.Rel Respelled (keyed.lookup name) (keyed'.lookup name) := by
  induction related with
  | nil => exact .none
  | cons same _ ih =>
      rw [lookup_member, lookup_member, ← same.1]
      split
      · exact .some same.2
      · exact ih

theorem lookup_zip_respelled {items items' : List Item}
    (related : List.Forall₂ (fun i i' => Respelled i.value i'.value) items items')
    (names : List String) (name : String) :
    Option.Rel Respelled ((names.zip (items.map (·.value))).lookup name)
      ((names.zip (items'.map (·.value))).lookup name) := by
  induction related generalizing names with
  | nil =>
      rw [List.map_nil, List.zip_nil_right]
      exact .none
  | cons same _ ih =>
      cases names with
      | nil => exact .none
      | cons first names =>
          rw [List.map_cons, List.map_cons, List.zip_cons_cons, List.zip_cons_cons, lookup_member,
            lookup_member]
          split
          · exact .some same
          · exact ih names

theorem fields?_respelled {names : List String} {v v' : Spelling} (same : Respelled v v')
    {given : String → Option Spelling} (read : fields? names v = some given) :
    ∃ given', fields? names v' = some given' ∧
      ∀ name ∈ names, Option.Rel Respelled (given name) (given' name) := by
  cases v with
  | object inside members =>
      cases v' with
      | object inside' members' =>
          obtain ⟨keyed, keys, read⟩ := Option.bind_eq_some_iff.1 read
          obtain ⟨arranged, respelled, perm⟩ := same
          obtain ⟨keyed', keys', between, related, perm⟩ := keyed?_respelled respelled perm keys
          split at read
          · rename_i once
            cases read
            -- Only the keys of fields have to be distinct; members that are skipped may repeat.
            rw [map_fst_known, keys_respelled related, ← map_fst_known] at once
            have perm' : (known names between).Perm (known names keyed') := perm.filter _
            refine ⟨fun name => keyed'.lookup name, ?_, fun name member => ?_⟩
            · rw [fields?, keys']
              exact if_pos ((perm'.map Prod.fst).nodup_iff.1 once)
            · have moved : between.lookup name = keyed'.lookup name := by
                rw [← lookup_known member, lookup_perm perm' once, lookup_known member]
              dsimp only
              rw [← moved]
              exact lookup_respelled related name
          · cases read
      | _ => exact same.elim
  | array inside items =>
      cases v' with
      | array inside' items' =>
          have related := forall₂_of_respelledItems same
          rw [fields?] at read
          split at read
          · rename_i fits
            cases read
            refine ⟨_, if_pos (related.length_eq ▸ fits), fun name _ => ?_⟩
            exact lookup_zip_respelled related names name
          · cases read
      | _ => exact same.elim
  | _ => cases read

theorem optional?_respelled {α : Type} {meaning : Spelling → Option α} {v v' : Option Spelling}
    (same : Option.Rel Respelled v v')
    (inner : ∀ w w', v = some w → Respelled w w' → ∀ a, meaning w = some a → meaning w' = some a)
    {a : Option α} (read : optional? meaning v = some a) : optional? meaning v' = some a := by
  cases same with
  | none => exact read
  | @some w w' same =>
      by_cases null : w = .null
      · subst null
        cases w' with
        | null => exact read
        | _ => exact same.elim
      · have null' : w' ≠ .null := by
          rintro rfl
          cases w with
          | null => exact null rfl
          | _ => exact same.elim
        rw [optional?_some meaning null] at read
        obtain ⟨b, found, rfl⟩ := Option.map_eq_some_iff.1 read
        rw [optional?_some meaning null', inner w w' rfl same b found]
        rfl

end Spelling

end LatencyGate.Json
