import Mathlib
import LatencyGate.Proofs.Report.Defaults

namespace LatencyGate

open Json Json.Reader Json.Spelling

namespace Json.Spelling

def positive? : Spelling → Option UInt64
  | .number n => n.integer?.bind fun k => if 0 < k ∧ k < 2 ^ 64 then some (.ofNat k.toNat) else none
  | _ => none

/-- What a value counts for that may be missing: a positive integer for itself, and anything else for
nothing. -/
def count (given : Option Spelling) : UInt64 := (given.bind positive?).getD 0

theorem positive?_eq_some_iff {v : Spelling} {u : UInt64} :
    positive? v = some u ↔
      u ≠ 0 ∧ ∃ n : Numeral, v = .number n ∧ n.integer? = some (u.toNat : Int) := by
  constructor
  · intro positive
    cases v with
    | number n =>
        obtain ⟨k, integer, positive⟩ := Option.bind_eq_some_iff.1 positive
        split at positive
        · rename_i range
          obtain rfl := Option.some.inj positive
          have fits : k.toNat < 0x10000000000000000 := by omega
          have toNat : (UInt64.ofNat k.toNat).toNat = k.toNat := UInt64.toNat_ofNat_of_lt' fits
          have pos : 0 < (UInt64.ofNat k.toNat).toNat := by omega
          exact ⟨UInt64.pos_iff_ne_zero.1 pos, n, rfl,
            by rw [toNat, Int.toNat_of_nonneg range.1.le, integer]⟩
        · cases positive
    | _ => cases positive
  · rintro ⟨nonzero, n, rfl, integer⟩
    have pos : 0 < u.toNat := UInt64.pos_iff_ne_zero.2 nonzero
    have bound := u.toNat_lt
    rw [positive?, integer, Option.bind_some, if_pos (by omega), Int.toNat_natCast,
      UInt64.ofNat_toNat]

theorem ne_zero_of_positive? {v : Spelling} {u : UInt64} (positive : positive? v = some u) :
    u ≠ 0 :=
  (positive?_eq_some_iff.1 positive).1

theorem negative_eq_false {n : Numeral} {u : UInt64} (nonzero : u ≠ 0)
    (integer : n.integer? = some (u.toNat : Int)) : n.negative = false := by
  have pos : 0 < u.toNat := UInt64.pos_iff_ne_zero.2 nonzero
  cases sign : n.negative with
  | false => rfl
  | true =>
      unfold Numeral.integer? at integer
      split at integer
      · rw [sign, if_pos rfl, Option.some.injEq] at integer
        omega
      · cases integer

theorem natural?_of_positive? {v : Spelling} {u : UInt64} (positive : positive? v = some u) :
    natural? v = some u := by
  obtain ⟨nonzero, n, rfl, integer⟩ := positive?_eq_some_iff.1 positive
  exact natural?_eq_some_iff.2 ⟨n, rfl, negative_eq_false nonzero integer, integer⟩

theorem positive?_of_natural? {v : Spelling} {u : UInt64} (nonzero : u ≠ 0)
    (natural : natural? v = some u) : positive? v = some u := by
  obtain ⟨n, rfl, -, integer⟩ := natural?_eq_some_iff.1 natural
  exact positive?_eq_some_iff.2 ⟨nonzero, n, rfl, integer⟩

theorem count_eq (given : Option Spelling) : count given = (given.bind natural?).getD 0 := by
  cases given with
  | none => rfl
  | some v =>
      rw [count, Option.bind_some, Option.bind_some]
      cases positive : positive? v with
      | some u => rw [natural?_of_positive? positive]
      | none =>
          cases natural : natural? v with
          | none => rfl
          | some u =>
              by_contra! nonzero
              rw [positive?_of_natural? nonzero.symm natural] at positive
              cases positive

section
variable {α β : Type} {meaning : Spelling → Option α} (figure : Option α → β)
  (told : Option Spelling → β) {given : Option Spelling}

theorem figure_eq_of_optional? (missing : figure none = told none)
    (null : told (some .null) = told none)
    (present : ∀ v ∈ given, v ≠ .null → ∀ a, meaning v = some a → figure (some a) = told (some v))
    {o : Option α} (read : optional? meaning given = some o) : figure o = told given := by
  cases given with
  | none =>
      cases read
      exact missing
  | some v =>
      by_cases other : v = .null
      · subst other
        cases read
        rw [missing, null]
      · rw [optional?_some _ other] at read
        obtain ⟨a, meant, rfl⟩ := Option.map_eq_some_iff.1 read
        exact present v rfl other a meant

end

section
variable {given : Option Spelling} {levels : Nat} {o : Option Json}

theorem getD_eq_count {u : Option UInt64} (read : optional? natural? given = some u) :
    u.getD 0 = count given := by
  refine figure_eq_of_optional? (·.getD 0) count rfl rfl (fun v _ _ u natural => ?_) read
  rw [count_eq, Option.bind_some, natural]

theorem natural?_eq_count (read : optional? (value? levels) given = some o) :
    (o.bind Json.natural?).getD 0 = count given := by
  refine figure_eq_of_optional? (fun o => (o.bind Json.natural?).getD 0) count rfl rfl
    (fun v _ _ j value => ?_) read
  rw [Option.bind_some, natural?_of_value? value, count_eq, Option.bind_some]

theorem member?_eq_count (k : String) (read : optional? (value? levels) given = some o) :
    ((o.bind (Json.member? k)).bind Json.natural?).getD 0 = count (given.bind (lastMember? k)) := by
  refine figure_eq_of_optional? (fun o => ((o.bind (Json.member? k)).bind Json.natural?).getD 0)
    (fun given => count (given.bind (lastMember? k))) rfl rfl (fun v _ _ j value => ?_) read
  rw [Option.bind_some, Option.bind_some, natural?_member?_of_value? value, count_eq]

end

def nested? (outer inner : String) (w : Spelling) : Option Spelling :=
  (lastMember? outer w).bind (lastMember? inner)

theorem given_eq_lastMember? {names : List String} {k : String} {w : Spelling}
    {given : String → Option Spelling} (read : fields? names w = some given) (object : IsObject w)
    (known : k ∈ names) (distinct : names.Nodup) : given k = lastMember? k w := by
  obtain ⟨inside, members, rfl⟩ := object
  rw [lastMember?]
  cases last : (named k members).getLast? with
  | none => exact given_eq_none_of_named read (List.getLast?_eq_none_iff.1 last)
  | some m =>
      obtain ⟨mem, key⟩ := mem_named.1 (List.mem_of_getLast? last)
      exact Has.given_eq ⟨inside, members, m, mem, rfl, key, rfl⟩ known distinct read

end Json.Spelling

theorem Latency.figures_eq_counts {given : Option Spelling} (object : Admits IsObject given)
    {latency : Option Latency} (read : optional? meaning.value? given = some latency) :
    figures latency = (count (given.bind (lastMember? "p99_ns")),
      count (given.bind (lastMember? "wcet_bound_ns"))) := by
  refine figure_eq_of_optional? figures (fun given => (count (given.bind (lastMember? "p99_ns")),
    count (given.bind (lastMember? "wcet_bound_ns")))) rfl rfl (fun w here present l block => ?_) read
  obtain ⟨fields, read, assembled⟩ := Option.bind_eq_some_iff.1 block
  obtain ⟨first, second⟩ := assemble?_eq_some_iff.1 assembled
  have object := (object w here).resolve_left present
  have p99 : fields "p99_ns" = lastMember? "p99_ns" w :=
    given_eq_lastMember? read object (by decide) meaning.names_nodup
  have bound : fields "wcet_bound_ns" = lastMember? "wcet_bound_ns" w :=
    given_eq_lastMember? read object (by decide) meaning.names_nodup
  rw [p99] at first
  rw [bound] at second
  exact Prod.ext (getD_eq_count first) (natural?_eq_count second)

namespace Report

structure Counts (r : Report) (w : Spelling) : Prop where
  p99 : r.p99 = count (nested? "latency" "p99_ns" w)
  wcetBound : r.wcetBound = count (nested? "latency" "wcet_bound_ns" w)
  inferenceRate : r.inferenceRate = count (nested? "throughput" "inferences_per_sec" w)

structure WrittenAsObjects (w : Spelling) : Prop where
  report : IsObject w
  latency : Admits IsObject (lastMember? "latency" w)

theorem counts_of_value? {w : Spelling} (objects : WrittenAsObjects w) {r : Report}
    (read : meaning.value? w = some r) : Counts r w := by
  obtain ⟨fields, read, assembled⟩ := Option.bind_eq_some_iff.1 read
  obtain ⟨-, -, latency, throughput⟩ := assemble?_eq_some_iff.1 assembled
  have block : fields "latency" = lastMember? "latency" w :=
    given_eq_lastMember? read objects.report (by decide) meaning.names_nodup
  have rate : fields "throughput" = lastMember? "throughput" w :=
    given_eq_lastMember? read objects.report (by decide) meaning.names_nodup
  rw [block] at latency
  rw [rate] at throughput
  obtain ⟨p99, bound⟩ := Prod.ext_iff.1 (Latency.figures_eq_counts objects.latency latency)
  exact ⟨p99, bound, member?_eq_count "inferences_per_sec" throughput⟩

end Report

end LatencyGate
