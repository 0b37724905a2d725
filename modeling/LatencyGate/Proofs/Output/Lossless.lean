import Mathlib
import LatencyGate.Proofs.Json.Writing.Values
import LatencyGate.Proofs.Output.Decoding
import LatencyGate.Proofs.Run.FullSink

namespace LatencyGate

open Json

theorem everywhere_ofBinary64 (x : Binary64) :
    Everywhere Number.IsFinite Ascending (.ofBinary64 x) := by
  unfold ofBinary64
  split
  · rename_i finite
    exact finite
  · trivial

theorem everywhere_ofInt64 (i : Int64) : Everywhere Number.IsFinite Ascending (.ofInt64 i) := by
  unfold ofInt64
  split
  · trivial
  split <;> trivial

theorem Metric.everywhere_members (reference target difference : String) (m : Metric) :
    Everywhere Number.IsFinite Ascending (ofMembers (m.members reference target difference)) :=
  everywhere_ofMembers ⟨trivial, trivial, everywhere_ofBinary64 _, everywhere_ofInt64 _, trivial⟩

theorem Comparison.everyMember_metricMember (key : String) (figure : Option Metric) :
    EveryMember Number.IsFinite Ascending (metricMember key figure) := by
  cases figure with
  | none => trivial
  | some m => exact ⟨m.everywhere_members _ _ _, trivial⟩

theorem Comparison.everywhere_json (c : Comparison) :
    Everywhere Number.IsFinite Ascending c.json := by
  have latency : Everywhere Number.IsFinite Ascending ((c.latency.map latencyJson).getD .null) := by
    cases c.latency with
    | none => trivial
    | some m => exact m.everywhere_members _ _ _
  have first : EveryMember Number.IsFinite Ascending [("command", .string "compare"),
      ("reference", .string c.referencePlatform), ("target", .string c.targetPlatform),
      ("latency", (c.latency.map latencyJson).getD .null)] :=
    ⟨trivial, trivial, trivial, latency, trivial⟩
  have last : EveryMember Number.IsFinite Ascending [("outputs_identical", .bool c.identical)] :=
    ⟨trivial, trivial⟩
  exact everywhere_ofMembers (everyMember_append (everyMember_append (everyMember_append first
    (everyMember_metricMember _ c.throughput)) (everyMember_metricMember _ c.wcet)) last)

theorem Outcome.everywhere_json (o : Outcome) : Everywhere Number.IsFinite Ascending o.json := by
  refine everywhere_ofMembers ?_
  cases o with
  | noBaseline => exact ⟨trivial, trivial, trivial, trivial⟩
  | pass m | fail m =>
      exact ⟨trivial, trivial, trivial, trivial, trivial, everywhere_ofBinary64 _,
        everywhere_ofBinary64 _, trivial⟩

def jsonLine (value : Json) (lines : List String) : Bytes :=
  (Sink.unlimited.putAll (pieces true value lines)).2.written

theorem jsonLine_eq_ofString (value : Json) (lines : List String) :
    jsonLine value lines = Utf8.ofString (String.join (pieces true value lines)) := by
  rw [jsonLine, Sink.unlimited, putAll_unlimited, List.nil_append]

theorem jsonLine_eq (value : Json) (lines : List String) :
    jsonLine value lines = Utf8.encode value.chars ++ [0x0A] := by
  have newline : Utf8.ofString "\n" = [0x0A] := by decide
  have joined : String.join (pieces true value lines) = value.render ++ "\n" := by simp [pieces]
  rw [jsonLine_eq_ofString, joined, Utf8.ofString_append, newline, render, Utf8.ofString_ofList]

/-- The line is one text of JSON and the line feed behind it, there is no other control character,
and whatever takes the text or the whole line apart recovers `a`. -/
structure Recovers {α : Type} (decode : Json → Option α) (a : α) (line : Bytes) : Prop where
  one_line : ∃ d : Document, line = d.bytes ++ [0x0A] ∧ Visible d.bytes
  recovers : ∀ d : Document, d.bytes = line ∨ d.bytes ++ [0x0A] = line →
    d.value.reading?.bind decode = some a

theorem recovers_jsonLine {α : Type} {decode : Json → Option α} {a : α} {value : Json}
    (finite : Everywhere Number.IsFinite Ascending value) (decoded : decode value = some a)
    (lines : List String) : Recovers decode a (jsonLine value lines) := by
  obtain ⟨w, written⟩ := exists_written value finite
  let plain : Document := ⟨[], w, []⟩
  let ended : Document := ⟨[], w, [.lineFeed]⟩
  have text : plain.bytes = w.bytes := List.append_nil _
  have line : jsonLine value lines = w.bytes ++ [0x0A] := by
    rw [jsonLine_eq, written.bytes]
  refine ⟨⟨plain, by rw [text, line], text ▸ written.visible⟩, fun d taken => ?_⟩
  have reading : d.value.reading? = w.reading? := by
    rcases taken with whole | part
    · have same : d.bytes = ended.bytes := whole.trans line
      exact Document.reading?_unique same
    · have same : d.bytes = plain.bytes := by
        rw [text]
        exact List.append_cancel_right (part.trans line)
      exact Document.reading?_unique same
  rw [reading, written.reading_eq, Option.bind_some, decoded]

theorem json_recovers :
    (∀ c : Comparison, c.IsFinite → Recovers Comparison.ofJson? c (jsonLine c.json c.lines)) ∧
      ∀ o : Outcome, o.IsFinite → Recovers Outcome.ofJson? o (jsonLine o.json o.lines) :=
  ⟨fun c finite => recovers_jsonLine c.everywhere_json (Comparison.ofJson?_json finite) c.lines,
    fun o finite => recovers_jsonLine o.everywhere_json (Outcome.ofJson?_json finite) o.lines⟩

def extremeComparison : Comparison where
  referencePlatform := "say \"µs\"\\\n\x01"
  targetPlatform := "𝄞"
  latency := some ⟨0xFFFFFFFFFFFFFFFF, 1, .finite false ⟨1, by decide⟩, Int64.minValue⟩
  throughput := none
  wcet := some ⟨1, 2, .neg .zero, Int64.maxValue⟩
  identical := true

def extremeLine : String :=
  "\x7b\"command\":\"compare\",\"latency\":\x7b\"diff_ns\":-9223372036854775808," ++
  "\"ratio\":5e-324,\"reference_p99_ns\":18446744073709551615,\"target_p99_ns\":1\x7d," ++
  "\"outputs_identical\":true,\"reference\":\"say \\\"µs\\\"\\\\\\n\\u0001\"," ++
  "\"target\":\"𝄞\",\"wcet\":\x7b\"diff\":9223372036854775807,\"ratio\":-0.0," ++
  "\"reference\":1,\"target\":2\x7d\x7d\n"

def failedTenth : Outcome := .fail {
  baseline := 3
  current := 5
  change := .finite false ⟨0x4050AAAAAAAAAAAB, by decide⟩
  threshold := .finite false ⟨0x3FB999999999999A, by decide⟩ }

theorem json_recovers_extremes :
    jsonLine extremeComparison.json extremeComparison.lines = Utf8.ofString extremeLine ∧
      extremeComparison.IsFinite ∧
      Recovers Comparison.ofJson? extremeComparison (Utf8.ofString extremeLine) ∧
      failedTenth.IsFinite ∧
      Recovers Outcome.ofJson? failedTenth (jsonLine failedTenth.json failedTenth.lines) := by
  have line : jsonLine extremeComparison.json extremeComparison.lines =
      Utf8.ofString extremeLine := by
    rw [jsonLine_eq]
    unfold extremeLine
    simp only [Utf8.ofString_append]
    decide +kernel
  have finite : extremeComparison.IsFinite := by
    simp [Comparison.IsFinite, extremeComparison, Binary64.isFinite, Binary64.neg, Binary64.zero]
  have finite' : failedTenth.IsFinite := by
    simp [Outcome.IsFinite, failedTenth, Outcome.measurement?, Binary64.isFinite]
  exact ⟨line, finite, line ▸ json_recovers.1 _ finite, finite', json_recovers.2 _ finite'⟩

end LatencyGate
