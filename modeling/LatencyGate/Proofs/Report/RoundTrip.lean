import Mathlib
import LatencyGate.Report
import LatencyGate.Proofs.Json.Records

namespace LatencyGate

open Json Json.Reader

/-! ## Texts of a report -/

/-- A value that is there, holds integers only and opens at most this many brackets at a time. -/
structure Json.Recoverable (levels : Nat) (v : Json) : Prop where
  present : v ≠ .null
  integral : v.Integral
  distinct : v.DistinctKeys
  shallow : v.depth ≤ levels

/-- The members are these slots in any order, each once and perhaps without some that are null. -/
structure Lists (slots members : List (String × Json)) : Prop where
  distinct : (members.map Prod.fst).Nodup
  among : ∀ member ∈ members, member ∈ slots
  complete : ∀ slot ∈ slots, slot ∈ members ∨ slot.2 = .null

def Latency.slots (l : Latency) : List (String × Json) := [
  ("p99_ns", (l.p99.map (Json.number ∘ .natural)).getD .null),
  ("wcet_bound_ns", l.wcetBound.getD .null)]

def Latency.WrittenAs : Option Latency → Json → Prop
  | none, v => v = .null
  | some l, v => ∃ members, v = .object members ∧ Lists l.slots members

def Report.slots (r : Report) (latency : Json) : List (String × Json) := [
  ("platform", (r.platform.map Json.string).getD .null),
  ("output_hash", (r.outputHash.map Json.string).getD .null),
  ("latency", latency),
  ("throughput", r.throughput.getD .null)]

def Report.WrittenAs (r : Report) (document : Json) : Prop :=
  ∃ latency members, Latency.WrittenAs r.latency latency ∧ document = .object members ∧
    Lists (r.slots latency) members

def Latency.arranged (l : Latency) : Latency :=
  { l with wcetBound := l.wcetBound.map Json.arranged }

def Report.arranged (r : Report) : Report :=
  { r with latency := r.latency.map Latency.arranged, throughput := r.throughput.map Json.arranged }

/-! ## Fields that are given -/

def Latency.restricted (l : Latency) (given : List String) : Latency where
  p99 := if "p99_ns" ∈ given then l.p99 else none
  wcetBound := if "wcet_bound_ns" ∈ given then l.wcetBound else none

def Report.restricted (r : Report) (given : List String) : Report where
  platform := if "platform" ∈ given then r.platform else none
  outputHash := if "output_hash" ∈ given then r.outputHash else none
  latency := if "latency" ∈ given then r.latency else none
  throughput := if "throughput" ∈ given then r.throughput else none

theorem Lists.restricted_eq {α : Type} {slots members : List (String × Json)}
    (lists : Lists slots members) (k : String) {v : Json} (slot : (k, v) ∈ slots)
    {inner : Reader α} {a : Option α} (reads : Reads (optional inner) v.chars a) :
    (if k ∈ (members.map Prod.fst).reverse then a else none) = a := by
  by_cases given : k ∈ (members.map Prod.fst).reverse
  · rw [if_pos given]
  · rw [if_neg given]
    rcases lists.complete (k, v) slot with member | null
    · exact absurd (List.mem_reverse.2 (List.mem_map.2 ⟨(k, v), member, rfl⟩)) given
    · cases null
      exact (eq_none_of_optional_null reads).symm

/-! ## Reading -/

theorem optional_text_reads (s : Option String) :
    Reads (optional text) ((s.map Json.string).getD .null).chars s := by
  cases s with
  | none => exact optional_null text
  | some s => exact optional_some nofun nofun (text_reads s)

theorem optional_unsigned_reads (n : Option UInt64) :
    Reads (optional unsigned) ((n.map (Json.number ∘ .natural)).getD .null).chars n := by
  cases n with
  | none => exact optional_null unsigned
  | some n => exact optional_some nofun nofun (unsigned_reads n)

theorem optional_value_reads {levels : Nat} {v : Option Json}
    (recoverable : ∀ w ∈ v, w.Recoverable levels) :
    Reads (optional (value levels)) (v.getD .null).chars (v.map Json.arranged) := by
  cases v with
  | none => exact optional_null (value levels)
  | some v =>
      have kept := recoverable v rfl
      exact optional_some kept.integral.ne_float kept.present
        (value_reads v levels kept.integral kept.shallow)

theorem latency_reads {l : Latency} {members : List (String × Json)} (lists : Lists l.slots members)
    (recoverable : ∀ v ∈ l.wcetBound, v.Recoverable (maxOpenBrackets - 2)) :
    Reads Latency.reader (Json.object members).chars l.arranged := by
  have p99 := optional_unsigned_reads l.p99
  have bound := optional_value_reads recoverable
  have whole : l.arranged.restricted (members.map Prod.fst).reverse = l.arranged := by
    have p99_eq := lists.restricted_eq "p99_ns" (by simp [Latency.slots]) p99
    have bound_eq := lists.restricted_eq "wcet_bound_ns" (by simp [Latency.slots]) bound
    simp only [Latency.restricted, Latency.arranged, p99_eq, bound_eq]
  rw [← whole]
  refine record_reads l.arranged.restricted (fun member mem => ?_) lists.distinct _
  have slot := lists.among member mem
  simp only [Latency.slots, List.mem_cons, List.not_mem_nil, or_false] at slot
  rcases slot with rfl | rfl
  · refine ⟨_, rfl, fun given => ?_⟩
    have read := p99.map fun p99 => { l.arranged.restricted given with p99 := p99 }
    simpa [Latency.restricted, Latency.arranged] using read
  · refine ⟨_, rfl, fun given => ?_⟩
    have read := bound.map fun bound => { l.arranged.restricted given with wcetBound := bound }
    simpa [Latency.restricted, Latency.arranged] using read

theorem optional_latency_reads {l : Option Latency} {v : Json} (written : Latency.WrittenAs l v)
    (recoverable : ∀ m ∈ l, ∀ w ∈ m.wcetBound, w.Recoverable (maxOpenBrackets - 2)) :
    Reads (optional Latency.reader) v.chars (l.map Latency.arranged) := by
  cases l with
  | none =>
      cases written
      exact optional_null Latency.reader
  | some l =>
      obtain ⟨members, rfl, lists⟩ := written
      exact optional_some nofun nofun (latency_reads lists (recoverable l rfl))

theorem report_reads {r : Report} {document : Json} (written : r.WrittenAs document)
    (bound : ∀ l ∈ r.latency, ∀ v ∈ l.wcetBound, v.Recoverable (maxOpenBrackets - 2))
    (figures : ∀ v ∈ r.throughput, v.Recoverable (maxOpenBrackets - 1)) :
    Reads Report.reader document.chars r.arranged := by
  obtain ⟨block, members, block_written, rfl, lists⟩ := written
  have platform := optional_text_reads r.platform
  have hash := optional_text_reads r.outputHash
  have latency := optional_latency_reads block_written bound
  have throughput := optional_value_reads figures
  have whole : r.arranged.restricted (members.map Prod.fst).reverse = r.arranged := by
    have platform_eq := lists.restricted_eq "platform" (by simp [Report.slots]) platform
    have hash_eq := lists.restricted_eq "output_hash" (by simp [Report.slots]) hash
    have latency_eq := lists.restricted_eq "latency" (by simp [Report.slots]) latency
    have throughput_eq := lists.restricted_eq "throughput" (by simp [Report.slots]) throughput
    simp only [Report.restricted, Report.arranged, platform_eq, hash_eq, latency_eq, throughput_eq]
  rw [← whole]
  refine record_reads r.arranged.restricted (fun member mem => ?_) lists.distinct _
  have slot := lists.among member mem
  simp only [Report.slots, List.mem_cons, List.not_mem_nil, or_false] at slot
  rcases slot with rfl | rfl | rfl | rfl
  · refine ⟨_, rfl, fun given => ?_⟩
    have read := platform.map fun name => { r.arranged.restricted given with platform := name }
    simpa [Report.restricted, Report.arranged] using read
  · refine ⟨_, rfl, fun given => ?_⟩
    have read := hash.map fun hash => { r.arranged.restricted given with outputHash := hash }
    simpa [Report.restricted, Report.arranged] using read
  · refine ⟨_, rfl, fun given => ?_⟩
    have read := latency.map fun block => { r.arranged.restricted given with latency := block }
    simpa [Report.restricted, Report.arranged] using read
  · refine ⟨_, rfl, fun given => ?_⟩
    have read := throughput.map fun v => { r.arranged.restricted given with throughput := v }
    simpa [Report.restricted, Report.arranged] using read

theorem readAll_eq {α : Type} {reader : Reader α} {text : List Char} {a : α}
    (reads : Reads reader text a) : readAll reader (Utf8.encode text) = .ok a := by
  have read := reads [] ends_nil
  rw [List.append_nil] at read
  unfold readAll
  simp only [run_bind, read]
  rfl

/-! ## What a report says -/

section
variable {r : Report}

theorem Report.arranged_eq_self
    (bound : ∀ l ∈ r.latency, ∀ v ∈ l.wcetBound, v.AscendingKeys)
    (figures : ∀ v ∈ r.throughput, v.AscendingKeys) : r.arranged = r := by
  have values {v : Option Json} (ascending : ∀ w ∈ v, w.AscendingKeys) :
      v.map Json.arranged = v := by
    cases v with
    | none => rfl
    | some v => exact congrArg some (Json.arranged_eq_self v (ascending v rfl))
  obtain ⟨platform, hash, latency, throughput⟩ := r
  rw [Report.arranged, values figures]
  cases latency with
  | none => rfl
  | some l =>
      obtain ⟨p99, wcet⟩ := l
      have same := values (bound _ rfl)
      simp only [Option.map_some, Latency.arranged, same]

theorem Report.p99_arranged : r.arranged.p99 = r.p99 := by
  cases latency : r.latency <;> simp [Report.p99, Report.arranged, latency, Latency.arranged]

theorem Report.wcetBound_arranged : r.arranged.wcetBound = r.wcetBound := by
  cases latency : r.latency with
  | none => simp [Report.wcetBound, Report.arranged, latency]
  | some l =>
      cases bound : l.wcetBound <;>
        simp [Report.wcetBound, Report.arranged, latency, Latency.arranged, bound,
          Json.natural?_arranged]

theorem Report.inferenceRate_arranged (distinct : ∀ v ∈ r.throughput, v.DistinctKeys) :
    r.arranged.inferenceRate = r.inferenceRate := by
  cases throughput : r.throughput with
  | none => simp [Report.inferenceRate, Report.arranged, throughput]
  | some v =>
      have member := Json.member?_arranged "inferences_per_sec" (distinct v throughput)
      cases figure : v.member? "inferences_per_sec" <;>
        simp [Report.inferenceRate, Report.arranged, throughput, member, figure,
          Json.natural?_arranged]

end

theorem Report.parse_written {r : Report} {document : Json} (written : r.WrittenAs document)
    (bound : ∀ l ∈ r.latency, ∀ v ∈ l.wcetBound, v.Recoverable (maxOpenBrackets - 2))
    (figures : ∀ v ∈ r.throughput, v.Recoverable (maxOpenBrackets - 1)) :
    Report.parse (Utf8.ofString document.render) = .ok r.arranged ∧
      Report.parseText document.render = .ok r.arranged ∧
      ((∀ l ∈ r.latency, ∀ v ∈ l.wcetBound, v.AscendingKeys) →
        (∀ v ∈ r.throughput, v.AscendingKeys) → r.arranged = r) ∧
      r.arranged.p99 = r.p99 ∧ r.arranged.wcetBound = r.wcetBound ∧
      r.arranged.inferenceRate = r.inferenceRate ∧
      r.arranged.platformName = r.platformName ∧ r.arranged.hash = r.hash := by
  have parsed : Report.parse (Utf8.ofString document.render) = .ok r.arranged := by
    rw [Json.render, Utf8.ofString_ofList]
    exact readAll_eq (report_reads written bound figures)
  exact ⟨parsed, parsed, Report.arranged_eq_self, Report.p99_arranged, Report.wcetBound_arranged,
    Report.inferenceRate_arranged fun v given => (figures v given).distinct, rfl, rfl⟩

def Report.sparse (figures : Json) : Report where
  platform := some "\"node\"\n🚀"
  latency := some { p99 := some 0xFFFFFFFFFFFFFFFF }
  throughput := some figures

def Report.sparseDocument (figures : Json) : Json :=
  .object [
    ("throughput", figures),
    ("platform", .string "\"node\"\n🚀"),
    ("latency", .object [
      ("wcet_bound_ns", .null), ("p99_ns", .number (.natural 0xFFFFFFFFFFFFFFFF))])]

theorem Report.parse_written_sparse :
    Report.parseText (Report.sparseDocument
        (.object [("b", .array [.null, .number (.negSucc 6)]), ("a", .bool true)])).render =
      .ok (Report.sparse
        (.object [("a", .bool true), ("b", .array [.null, .number (.negSucc 6)])])) := by
  have written (figures : Json) :
      (Report.sparse figures).WrittenAs (Report.sparseDocument figures) := by
    refine ⟨.object [("wcet_bound_ns", .null), ("p99_ns", .number (.natural 0xFFFFFFFFFFFFFFFF))],
      _, ⟨_, rfl, ?_⟩, rfl, ?_⟩ <;>
      constructor <;> simp [Report.sparse, Latency.slots, Report.slots]
  refine (Report.parse_written (written _) ?_ ?_).2.1
  · rintro l ⟨⟩ v ⟨⟩
  · rintro v ⟨⟩
    exact {
      present := nofun
      integral := by simp [Integral, Everywhere, EveryMember, EveryItem, Number.IsInteger]
      distinct := by simp [DistinctKeys, Everywhere, EveryMember, EveryItem]
      shallow := by decide }

end LatencyGate
