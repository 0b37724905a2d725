import Mathlib
import LatencyGate.Report
import LatencyGate.Proofs.Json.Reading.Records

namespace LatencyGate

open Json Json.Reader Json.Spelling

def Latency.assemble? (given : String → Option Spelling) : Option Latency :=
  (optional? natural? (given "p99_ns")).bind fun p99 =>
    (optional? (value? (maxOpenBrackets - 2)) (given "wcet_bound_ns")).map fun wcetBound =>
      { p99, wcetBound }

def Latency.fieldMeanings : List (FieldMeaning Latency) := [
  ⟨⟨"p99_ns", fun latency => return { latency with p99 := ← optional unsigned }⟩,
    fun latency v => (optional? natural? (some v)).map fun p99 => { latency with p99 },
    fun _ => (optional_denotes unsigned_denotes).map _⟩,
  ⟨⟨"wcet_bound_ns", fun latency =>
      return { latency with wcetBound := ← optional (value (maxOpenBrackets - 2)) }⟩,
    fun latency v => (optional? (value? (maxOpenBrackets - 2)) (some v)).map
      fun wcetBound => { latency with wcetBound },
    fun _ => (optional_denotes (value_denotes _)).map _⟩]

def Latency.meaning : RecordMeaning Latency where
  fields := fieldMeanings
  distinct := by decide
  empty := {}
  assemble := assemble?
  assemble_none := rfl
  assemble_congr same := by
    rw [assemble?, same "p99_ns" (by decide), same "wcet_bound_ns" (by decide)]
    rfl
  assemble_null := by
    intro given f mem fresh
    simp only [fieldMeanings, List.mem_cons, List.not_mem_nil, or_false] at mem
    rcases mem with rfl | rfl
    all_goals
      simp only at fresh
      simp only [assemble?, Function.update_self, fresh, ne_eq, String.reduceEq, not_false_eq_true,
        Function.update_of_ne]
      rfl
  assemble_update {given} := by
    intro f mem v fresh
    simp only [fieldMeanings, List.mem_cons, List.not_mem_nil, or_false] at mem
    rcases mem with rfl | rfl
    · have p99 : given "p99_ns" = none := fresh
      simp only [assemble?, Function.update_self, p99, ne_eq, String.reduceEq, not_false_eq_true,
        Function.update_of_ne]
      cases optional? natural? (some v) <;>
        cases optional? (value? (maxOpenBrackets - 2)) (given "wcet_bound_ns") <;> rfl
    · have bound : given "wcet_bound_ns" = none := fresh
      simp only [assemble?, Function.update_self, bound, ne_eq, String.reduceEq, not_false_eq_true,
        Function.update_of_ne]
      cases optional? natural? (given "p99_ns") <;>
        cases optional? (value? (maxOpenBrackets - 2)) (some v) <;> rfl

theorem Latency.assemble?_eq_some_iff {given : String → Option Spelling} {latency : Latency} :
    assemble? given = some latency ↔
      optional? natural? (given "p99_ns") = some latency.p99 ∧
        optional? (value? (maxOpenBrackets - 2)) (given "wcet_bound_ns") =
          some latency.wcetBound := by
  constructor
  · intro assembled
    obtain ⟨p99, first, assembled⟩ := Option.bind_eq_some_iff.1 assembled
    obtain ⟨bound, second, rfl⟩ := Option.map_eq_some_iff.1 assembled
    exact ⟨first, second⟩
  · rintro ⟨first, second⟩
    rw [assemble?, first, second]
    rfl

theorem Latency.reader_denotes : Denotes Latency.reader Latency.meaning.value? :=
  Latency.meaning.record_denotes "struct LatencyStats"

def Report.assemble? (given : String → Option Spelling) : Option Report :=
  (optional? text? (given "platform")).bind fun platform =>
    (optional? text? (given "output_hash")).bind fun outputHash =>
      (optional? Latency.meaning.value? (given "latency")).bind fun latency =>
        (optional? (value? (maxOpenBrackets - 1)) (given "throughput")).map fun throughput =>
          { platform, outputHash, latency, throughput }

def Report.fieldMeanings : List (FieldMeaning Report) := [
  ⟨⟨"platform", fun report => return { report with platform := ← optional text }⟩,
    fun report v => (optional? text? (some v)).map fun platform => { report with platform },
    fun _ => (optional_denotes text_denotes).map _⟩,
  ⟨⟨"output_hash", fun report => return { report with outputHash := ← optional text }⟩,
    fun report v => (optional? text? (some v)).map fun outputHash => { report with outputHash },
    fun _ => (optional_denotes text_denotes).map _⟩,
  ⟨⟨"latency", fun report => return { report with latency := ← optional Latency.reader }⟩,
    fun report v => (optional? Latency.meaning.value? (some v)).map
      fun latency => { report with latency },
    fun _ => (optional_denotes Latency.reader_denotes).map _⟩,
  ⟨⟨"throughput", fun report =>
      return { report with throughput := ← optional (value (maxOpenBrackets - 1)) }⟩,
    fun report v => (optional? (value? (maxOpenBrackets - 1)) (some v)).map
      fun throughput => { report with throughput },
    fun _ => (optional_denotes (value_denotes _)).map _⟩]

def Report.meaning : RecordMeaning Report where
  fields := fieldMeanings
  distinct := by decide
  empty := {}
  assemble := assemble?
  assemble_none := rfl
  assemble_congr same := by
    rw [assemble?, same "platform" (by decide), same "output_hash" (by decide),
      same "latency" (by decide), same "throughput" (by decide)]
    rfl
  assemble_null := by
    intro given f mem fresh
    simp only [fieldMeanings, List.mem_cons, List.not_mem_nil, or_false] at mem
    rcases mem with rfl | rfl | rfl | rfl
    all_goals
      simp only at fresh
      simp only [assemble?, Function.update_self, fresh, ne_eq, String.reduceEq, not_false_eq_true,
        Function.update_of_ne]
      rfl
  assemble_update {given} := by
    intro f mem v fresh
    simp only [fieldMeanings, List.mem_cons, List.not_mem_nil, or_false] at mem
    rcases mem with rfl | rfl | rfl | rfl
    all_goals
      simp only at fresh
      simp only [assemble?, Function.update_self, fresh, ne_eq, String.reduceEq, not_false_eq_true,
        Function.update_of_ne]
    · cases optional? text? (some v) <;> cases optional? text? (given "output_hash") <;>
        cases optional? Latency.meaning.value? (given "latency") <;>
        cases optional? (value? (maxOpenBrackets - 1)) (given "throughput") <;> rfl
    · cases optional? text? (given "platform") <;> cases optional? text? (some v) <;>
        cases optional? Latency.meaning.value? (given "latency") <;>
        cases optional? (value? (maxOpenBrackets - 1)) (given "throughput") <;> rfl
    · cases optional? text? (given "platform") <;> cases optional? text? (given "output_hash") <;>
        cases optional? Latency.meaning.value? (some v) <;>
        cases optional? (value? (maxOpenBrackets - 1)) (given "throughput") <;> rfl
    · cases optional? text? (given "platform") <;> cases optional? text? (given "output_hash") <;>
        cases optional? Latency.meaning.value? (given "latency") <;>
        cases optional? (value? (maxOpenBrackets - 1)) (some v) <;> rfl

theorem Report.assemble?_eq_some_iff {given : String → Option Spelling} {r : Report} :
    assemble? given = some r ↔
      optional? text? (given "platform") = some r.platform ∧
        optional? text? (given "output_hash") = some r.outputHash ∧
          optional? Latency.meaning.value? (given "latency") = some r.latency ∧
            optional? (value? (maxOpenBrackets - 1)) (given "throughput") = some r.throughput := by
  constructor
  · intro assembled
    obtain ⟨platform, first, assembled⟩ := Option.bind_eq_some_iff.1 assembled
    obtain ⟨hash, second, assembled⟩ := Option.bind_eq_some_iff.1 assembled
    obtain ⟨latency, third, assembled⟩ := Option.bind_eq_some_iff.1 assembled
    obtain ⟨throughput, fourth, rfl⟩ := Option.map_eq_some_iff.1 assembled
    exact ⟨first, second, third, fourth⟩
  · rintro ⟨first, second, third, fourth⟩
    rw [assemble?, first, second, third, fourth]
    rfl

theorem Report.reader_denotes : Denotes Report.reader Report.meaning.value? :=
  Report.meaning.record_denotes "struct BenchmarkReport"

namespace Report

theorem parse_eq_ok_iff (d : Document) {r : Report} :
    parse d.bytes = .ok r ↔ meaning.value? d.value = some r :=
  readAll_eq_ok_iff reader_denotes d

theorem exists_document {document : Bytes} {r : Report} (ok : parse document = .ok r) :
    ∃ d : Document, d.bytes = document :=
  Reader.exists_document reader_denotes ok

end Report

end LatencyGate
