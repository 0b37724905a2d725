import Mathlib
import LatencyGate.Proofs.Json.Readable
import LatencyGate.Proofs.Report.Edits

namespace LatencyGate

open Json Json.Reader Json.Spelling

inductive LooseField where
  | throughput
  | wcetBound

namespace LooseField

def levels : LooseField → Nat
  | .throughput => maxOpenBrackets - 1
  | .wcetBound => maxOpenBrackets - 2

/-- The field of a report is set to a value; the bound needs a latency block to stand in. -/
inductive Sets : LooseField → Spelling → Spelling → Spelling → Prop
  | throughput {v w w' : Spelling} (sets : Spelling.Sets Report.meaning.names "throughput" v w w') :
      Sets .throughput v w w'
  | wcetBound {v l l' w w' : Spelling}
    (sets : Spelling.Sets Latency.meaning.names "wcet_bound_ns" v l l')
    (replaces : Replaces Report.meaning.names "latency" l l' w w') : Sets .wcetBound v w w'

def put : LooseField → Option Json → Report → Report
  | .throughput, value, r => { r with throughput := value }
  | .wcetBound, value, r => { r with latency := r.latency.map ({ · with wcetBound := value }) }

@[simp] theorem put_platform (field : LooseField) (value : Option Json) (r : Report) :
    (put field value r).platform = r.platform := by
  cases field <;> rfl

@[simp] theorem put_outputHash (field : LooseField) (value : Option Json) (r : Report) :
    (put field value r).outputHash = r.outputHash := by
  cases field <;> rfl

@[simp] theorem put_p99 (field : LooseField) (value : Option Json) (r : Report) :
    (put field value r).latency.map Latency.p99 = r.latency.map Latency.p99 := by
  cases field with
  | throughput => rfl
  | wcetBound => exact Option.map_map ..

end LooseField

namespace Report

theorem value?_set {field : LooseField} {v w w' : Spelling} (sets : field.Sets v w w') {r : Report}
    (read : meaning.value? w = some r) :
    meaning.value? w' = (optional? (value? field.levels) (some v)).map (field.put · r) := by
  cases sets with
  | throughput sets => exact value?_sets_throughput sets read
  | wcetBound sets replaces =>
      obtain ⟨latency, found, kept, eq⟩ :=
        value?_replaces_latency sets.ne_null.1 sets.ne_null.2 replaces read
      rw [eq, Latency.value?_sets_wcetBound sets found, Option.map_map]
      have put (bound : Option Json) : LooseField.wcetBound.put bound r =
          { r with latency := some { latency with wcetBound := bound } } := by
        rw [LooseField.put, kept, Option.map_some]
      simp only [put]
      rfl

/-- After a loosely typed field was set, a document says the same about the platform, the hash and the
latency if and only if the value can be read and its brackets are not too deep. -/
theorem parse_set_iff {document : Bytes} {report : Report} (ok : parse document = .ok report) :
    (∃ d : Document, d.bytes = document) ∧
      ∀ (d d' : Document) (field : LooseField) (v : Spelling), d.bytes = document →
        field.Sets v d.value d'.value →
          ((∃ r, parse d'.bytes = .ok r ∧ r.platform = report.platform ∧
              r.outputHash = report.outputHash ∧
                r.latency.map Latency.p99 = report.latency.map Latency.p99) ↔
            v.depth ≤ field.levels ∧ v.Readable) := by
  refine ⟨exists_document ok, ?_⟩
  rintro d d' field v rfl sets
  rw [parse_eq_ok_iff] at ok
  rw [← optional?_isSome_iff]
  simp only [parse_eq_ok_iff, value?_set sets ok]
  constructor
  · rintro ⟨r, read, -⟩
    obtain ⟨value, found, -⟩ := Option.map_eq_some_iff.1 read
    rw [found, Option.isSome_some]
  · intro found
    obtain ⟨value, found⟩ := Option.isSome_iff_exists.1 found
    refine ⟨field.put value report, by rw [found, Option.map_some], ?_⟩
    exact ⟨field.put_platform value report, field.put_outputHash value report,
      field.put_p99 value report⟩

def latencyDocument (members : List Member) : Document :=
  .plain (.object [] [plainMember "latency" (.object []
    (plainMember "p99_ns" (.number (.single 7)) :: members))])

def listedBound : Spelling := .array [] [plainItem (.number (.scaled 2 5 []))]

def overflowingBound : Spelling := .number (.scaled 1 4 [0, 0])

theorem sets_wcetBound (v : Spelling) : LooseField.wcetBound.Sets v (latencyDocument []).value
    (latencyDocument [plainMember "wcet_bound_ns" v]).value := by
  have key : Literal.text? (.plain "wcet_bound_ns") = some "wcet_bound_ns" := by decide +kernel
  have fresh : Literal.text? (.plain "p99_ns") ≠ some "wcet_bound_ns" := by decide +kernel
  refine .wcetBound (.adds [] [_] (plainMember "wcet_bound_ns" v) [] key rfl ?_)
    (.member [] [] (plainMember "latency" _) [] (by decide +kernel) rfl)
  intro other mem
  obtain rfl := List.mem_singleton.1 mem
  exact fresh

theorem parse_latencyDocument :
    parse (latencyDocument []).bytes = .ok { latency := some { p99 := some 7 } } := by
  rw [parse_eq_ok_iff]
  cbv

theorem parse_set_iff_listed :
    parseText "\x7b\"latency\":\x7b\"p99_ns\":7\x7d\x7d" =
        .ok { latency := some { p99 := some 7 } } ∧
      ∃ r, parseText "\x7b\"latency\":\x7b\"p99_ns\":7,\"wcet_bound_ns\":[2e5]\x7d\x7d" = .ok r ∧
        r.platform = none ∧ r.outputHash = none ∧ r.latency.map Latency.p99 = some (some 7) := by
  have bytes : (latencyDocument []).bytes =
      Utf8.ofString "\x7b\"latency\":\x7b\"p99_ns\":7\x7d\x7d" := by decide
  have bytes' : (latencyDocument [plainMember "wcet_bound_ns" listedBound]).bytes =
      Utf8.ofString "\x7b\"latency\":\x7b\"p99_ns\":7,\"wcet_bound_ns\":[2e5]\x7d\x7d" := by
    decide
  have readable : listedBound.Readable := by
    refine .array fun item mem => ?_
    obtain rfl := List.mem_singleton.1 mem
    exact .number (by decide +kernel)
  rw [parseText, parseText, ← bytes, ← bytes']
  exact ⟨parse_latencyDocument, ((parse_set_iff parse_latencyDocument).2 _ _ .wcetBound listedBound rfl
    (sets_wcetBound listedBound)).2 ⟨by decide, readable⟩⟩

theorem set_overflowing_refused :
    LooseField.wcetBound.Sets overflowingBound (latencyDocument []).value
        (latencyDocument [plainMember "wcet_bound_ns" overflowingBound]).value ∧
      (latencyDocument []).bytes =
        Utf8.ofString "\x7b\"latency\":\x7b\"p99_ns\":7\x7d\x7d" ∧
      (latencyDocument [plainMember "wcet_bound_ns" overflowingBound]).bytes = Utf8.ofString
        "\x7b\"latency\":\x7b\"p99_ns\":7,\"wcet_bound_ns\":1e400\x7d\x7d" ∧
      (∃ r, parse (latencyDocument []).bytes = .ok r) ∧
      ¬∃ r, parse (latencyDocument [plainMember "wcet_bound_ns" overflowingBound]).bytes = .ok r := by
  have refused : (optional? (value? (maxOpenBrackets - 2)) (some overflowingBound)).isSome = false := by
    decide +kernel
  have read := (parse_eq_ok_iff _).1 parse_latencyDocument
  refine ⟨sets_wcetBound _, by decide, by decide, ⟨_, parse_latencyDocument⟩, ?_⟩
  rintro ⟨r, ok⟩
  rw [parse_eq_ok_iff, value?_set (sets_wcetBound _) read] at ok
  obtain ⟨value, found, -⟩ := Option.map_eq_some_iff.1 ok
  nomatch refused.symm.trans (Option.isSome_of_eq_some found : _ = true)

end Report

end LatencyGate
