import Mathlib
import LatencyGate.Proofs.Json.Members
import LatencyGate.Proofs.Report.Types

namespace LatencyGate

open Json Json.Reader Json.Spelling

namespace Json.Spelling

/-- The value is no natural number but zero. -/
def NoCount (v : Spelling) : Prop := ∀ n, natural? v = some n → n = 0

/-- A field is given in the same way twice, or each time so that it says nothing. -/
def Interchangeable (empty : Spelling → Prop) (v v' : Option Spelling) : Prop :=
  v = v' ∨ Admits empty v ∧ Admits empty v'

theorem Interchangeable.of_missing {empty : Spelling → Prop} {w : Spelling}
    (nothing : w = .null ∨ empty w) : Interchangeable empty none (some w) := by
  refine .inr ⟨fun v given => absurd given (Option.not_mem_none v), fun v given => ?_⟩
  obtain rfl := Option.mem_some.1 given
  exact nothing

section
variable {α β : Type}

/-- What is `empty` has a meaning, in which a figure sees no more than in a missing field. -/
def Mute (meaning : Spelling → Option α) (figure : Option α → β) (empty : Spelling → Prop) : Prop :=
  ∀ v, empty v → ∃ a, meaning v = some a ∧ figure (some a) = figure none

variable {meaning : Spelling → Option α} {figure : Option α → β} {empty : Spelling → Prop}
  {v v' : Option Spelling}

theorem Mute.figure_eq_none (mute : Mute meaning figure empty) (admits : Admits empty v) :
    ∃ o, optional? meaning v = some o ∧ figure o = figure none := by
  cases v with
  | none => exact ⟨none, rfl, rfl⟩
  | some w =>
      by_cases null : w = .null
      · rw [null]
        exact ⟨none, rfl, rfl⟩
      · obtain ⟨a, read, same⟩ := mute w ((admits w rfl).resolve_left null)
        exact ⟨some a, by rw [optional?_some _ null, read, Option.map_some], same⟩

theorem Mute.figure_eq (mute : Mute meaning figure empty) (same : Interchangeable empty v v')
    {o : Option α} (read : optional? meaning v = some o) :
    ∃ o', optional? meaning v' = some o' ∧ figure o = figure o' := by
  obtain rfl | ⟨first, second⟩ := same
  · exact ⟨o, read, rfl⟩
  · obtain ⟨o₁, read₁, nothing⟩ := mute.figure_eq_none first
    obtain ⟨o₂, read₂, nothing'⟩ := mute.figure_eq_none second
    obtain rfl := Option.some.inj (read₁.symm.trans read)
    exact ⟨o₂, read₂, nothing.trans nothing'.symm⟩

end

theorem NoCount.getD {v : Spelling} (none : NoCount v) : (natural? v).getD 0 = 0 := by
  cases natural : natural? v with
  | none => rfl
  | some n => exact none n natural

def NoMemberCount (k : String) (v : Spelling) : Prop := ∀ u ∈ lastMember? k v, NoCount u

theorem NoMemberCount.getD {k : String} {v : Spelling} (none : NoMemberCount k v) {levels : Nat}
    {j : Json} (read : value? levels v = some j) :
    ((j.member? k).bind Json.natural?).getD 0 = 0 := by
  rw [natural?_member?_of_value? read]
  cases last : lastMember? k v with
  | none => rfl
  | some u => exact (none u last).getD

theorem ne_null_of_fields? {names : List String} {w : Spelling} {given : String → Option Spelling}
    (read : fields? names w = some given) : w ≠ .null := by
  rintro rfl
  cases read

end Json.Spelling

namespace Latency

def IsZero (v : Spelling) : Prop := natural? v = some 0

def NoBound (v : Spelling) : Prop := IsLoose (maxOpenBrackets - 2) v ∧ NoCount v

def Empty (w : Spelling) : Prop :=
  ∃ given, fields? meaning.names w = some given ∧ Admits IsZero (given "p99_ns") ∧
    Admits NoBound (given "wcet_bound_ns")

inductive Alike : Option Spelling → Option Spelling → Prop
  | whole {v v' : Option Spelling} (same : Interchangeable Empty v v') : Alike v v'
  | blocks {w w' : Spelling} {given other : String → Option Spelling}
    (read : fields? meaning.names w = some given) (read' : fields? meaning.names w' = some other)
    (p99 : Interchangeable IsZero (given "p99_ns") (other "p99_ns"))
    (bound : Interchangeable NoBound (given "wcet_bound_ns") (other "wcet_bound_ns")) :
      Alike (some w) (some w')

def figures (latency : Option Latency) : UInt64 × UInt64 :=
  ((latency.bind p99).getD 0, ((latency.bind wcetBound).bind Json.natural?).getD 0)

theorem mute_isZero : Mute natural? (·.getD 0) IsZero := fun _ zero => ⟨0, zero, rfl⟩

theorem mute_noBound : Mute (value? (maxOpenBrackets - 2))
    (fun o => (o.bind Json.natural?).getD 0) NoBound := by
  rintro v ⟨loose, none⟩
  obtain ⟨j, read⟩ := Option.isSome_iff_exists.1 ((value?_isSome_iff_isLoose _ v).2 loose)
  refine ⟨j, read, ?_⟩
  simp only [Option.bind_some, natural?_of_value? read]
  exact none.getD

theorem mute_empty : Mute meaning.value? figures Empty := by
  rintro v ⟨given, read, p99, bound⟩
  obtain ⟨figure, first, p99_eq⟩ := mute_isZero.figure_eq_none p99
  obtain ⟨bound', second, bound_eq⟩ := mute_noBound.figure_eq_none bound
  refine ⟨⟨figure, bound'⟩, ?_, Prod.ext p99_eq bound_eq⟩
  exact Option.bind_eq_some_iff.2 ⟨given, read, assemble?_eq_some_iff.2 ⟨first, second⟩⟩

theorem figures_of_alike {v v' : Option Spelling} (alike : Alike v v') {latency : Option Latency}
    (read : optional? meaning.value? v = some latency) :
    ∃ latency', optional? meaning.value? v' = some latency' ∧
      figures latency = figures latency' := by
  cases alike with
  | whole same => exact mute_empty.figure_eq same read
  | @blocks w w' given other fields fields' p99 bound =>
      rw [optional?_some _ (ne_null_of_fields? fields), RecordMeaning.value?, fields,
        Option.bind_some] at read
      obtain ⟨block, assembled, rfl⟩ := Option.map_eq_some_iff.1 read
      obtain ⟨first, second⟩ := assemble?_eq_some_iff.1 assembled
      obtain ⟨figure, first, p99_eq⟩ := mute_isZero.figure_eq p99 first
      obtain ⟨bound', second, bound_eq⟩ := mute_noBound.figure_eq bound second
      have assembled' : assemble? other = some ⟨figure, bound'⟩ :=
        assemble?_eq_some_iff.2 ⟨first, second⟩
      refine ⟨some ⟨figure, bound'⟩, ?_, Prod.ext p99_eq bound_eq⟩
      rw [optional?_some _ (ne_null_of_fields? fields'), RecordMeaning.value?, fields',
        Option.bind_some]
      exact congrArg (Option.map some) assembled'

end Latency

namespace Report

structure SameFigures (r r' : Report) : Prop where
  p99 : r.p99 = r'.p99
  platformName : r.platformName = r'.platformName
  hash : r.hash = r'.hash
  inferenceRate : r.inferenceRate = r'.inferenceRate
  wcetBound : r.wcetBound = r'.wcetBound

def IsUnknown (v : Spelling) : Prop := text? v = some "unknown"

def IsEmptyText (v : Spelling) : Prop := text? v = some ""

def NoRate (v : Spelling) : Prop :=
  IsLoose (maxOpenBrackets - 1) v ∧ NoMemberCount "inferences_per_sec" v

inductive Alike : Spelling → Spelling → Prop
  | intro {w w' : Spelling} {given other : String → Option Spelling}
    (read : fields? meaning.names w = some given) (read' : fields? meaning.names w' = some other)
    (platform : Interchangeable IsUnknown (given "platform") (other "platform"))
    (hash : Interchangeable IsEmptyText (given "output_hash") (other "output_hash"))
    (latency : Latency.Alike (given "latency") (other "latency"))
    (throughput : Interchangeable NoRate (given "throughput") (other "throughput")) : Alike w w'

theorem mute_isUnknown : Mute text? (·.getD "unknown") IsUnknown :=
  fun _ unknown => ⟨_, unknown, rfl⟩

theorem mute_isEmptyText : Mute text? (·.getD "") IsEmptyText := fun _ empty => ⟨_, empty, rfl⟩

theorem mute_noRate : Mute (value? (maxOpenBrackets - 1))
    (fun o => ((o.bind (Json.member? "inferences_per_sec")).bind Json.natural?).getD 0) NoRate := by
  rintro v ⟨loose, none⟩
  obtain ⟨j, read⟩ := Option.isSome_iff_exists.1 ((value?_isSome_iff_isLoose _ v).2 loose)
  exact ⟨j, read, none.getD read⟩

theorem sameFigures_of_alike {w w' : Spelling} (alike : Alike w w') {r : Report}
    (read : meaning.value? w = some r) : ∃ r', meaning.value? w' = some r' ∧ SameFigures r r' := by
  obtain ⟨fields, fields', platform, hash, latency, throughput⟩ := alike
  rw [RecordMeaning.value?, fields, Option.bind_some] at read
  obtain ⟨first, second, third, fourth⟩ := assemble?_eq_some_iff.1 read
  obtain ⟨platform', first, name_eq⟩ := mute_isUnknown.figure_eq platform first
  obtain ⟨hash', second, hash_eq⟩ := mute_isEmptyText.figure_eq hash second
  obtain ⟨latency', third, latency_eq⟩ := Latency.figures_of_alike latency third
  obtain ⟨throughput', fourth, rate_eq⟩ := mute_noRate.figure_eq throughput fourth
  obtain ⟨p99_eq, bound_eq⟩ := Prod.ext_iff.1 latency_eq
  refine ⟨⟨platform', hash', latency', throughput'⟩, ?_, p99_eq, name_eq, hash_eq, rate_eq,
    bound_eq⟩
  rw [RecordMeaning.value?, fields', Option.bind_some]
  exact assemble?_eq_some_iff.2 ⟨first, second, third, fourth⟩

theorem parse_alike {d d' : Document} (alike : Alike d.value d'.value) {r : Report}
    (ok : parse d.bytes = .ok r) : ∃ r', parse d'.bytes = .ok r' ∧ SameFigures r r' := by
  obtain ⟨r', read, same⟩ := sameFigures_of_alike alike ((parse_eq_ok_iff d).1 ok)
  exact ⟨r', (parse_eq_ok_iff d').2 read, same⟩

end Report

end LatencyGate
