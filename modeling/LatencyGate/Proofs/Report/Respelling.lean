import Mathlib
import LatencyGate.Proofs.Json.Respelling
import LatencyGate.Proofs.Report.Meaning

namespace LatencyGate

open Json Json.Spelling

def Latency.KeptKeysDistinct (latency : Spelling) : Prop :=
  ∀ given, fields? meaning.names latency = some given →
    ∀ bound, given "wcet_bound_ns" = some bound → bound.DistinctKeys

/-- No object inside of the values that are kept gives a key twice. The report and its latency block
may still have repeated members that are skipped. -/
def Report.KeptKeysDistinct (report : Spelling) : Prop :=
  ∀ given, fields? meaning.names report = some given →
    (∀ latency, given "latency" = some latency → Latency.KeptKeysDistinct latency) ∧
      ∀ throughput, given "throughput" = some throughput → throughput.DistinctKeys

theorem Latency.value?_respelled {v v' : Spelling} (distinct : KeptKeysDistinct v)
    (same : Respelled v v') {latency : Latency} (read : meaning.value? v = some latency) :
    meaning.value? v' = some latency := by
  obtain ⟨given, fields, read⟩ := Option.bind_eq_some_iff.1 read
  obtain ⟨given', fields', related⟩ := fields?_respelled same fields
  obtain ⟨first, second⟩ := assemble?_eq_some_iff.1 read
  have first' := optional?_respelled (related "p99_ns" (by decide))
    (fun w w' _ same a read => (natural?_respelled same).trans read) first
  have second' := optional?_respelled (related "wcet_bound_ns" (by decide))
    (fun w w' value same a read =>
      Spelling.value?_respelled (distinct given fields w value) same read) second
  exact Option.bind_eq_some_iff.2 ⟨given', fields', assemble?_eq_some_iff.2 ⟨first', second'⟩⟩

theorem Report.value?_respelled {v v' : Spelling} (distinct : KeptKeysDistinct v)
    (same : Respelled v v') {report : Report} (read : meaning.value? v = some report) :
    meaning.value? v' = some report := by
  obtain ⟨given, fields, read⟩ := Option.bind_eq_some_iff.1 read
  obtain ⟨given', fields', related⟩ := fields?_respelled same fields
  obtain ⟨first, second, third, fourth⟩ := assemble?_eq_some_iff.1 read
  have text (w w' : Spelling) (same : Respelled w w') (s : String) (read : text? w = some s) :
      text? w' = some s := (text?_respelled same).trans read
  have first' := optional?_respelled (related "platform" (by decide)) (fun w w' _ => text w w') first
  have second' :=
    optional?_respelled (related "output_hash" (by decide)) (fun w w' _ => text w w') second
  have third' := optional?_respelled (related "latency" (by decide))
    (fun w w' value same a read =>
      Latency.value?_respelled ((distinct given fields).1 w value) same read) third
  have fourth' := optional?_respelled (related "throughput" (by decide))
    (fun w w' value same a read =>
      Spelling.value?_respelled ((distinct given fields).2 w value) same read) fourth
  exact Option.bind_eq_some_iff.2
    ⟨given', fields', assemble?_eq_some_iff.2 ⟨first', second', third', fourth'⟩⟩

/-- What a document says does not depend on how it is spelled. -/
theorem Report.parse_respelled {document : Bytes} {report : Report}
    (ok : parse document = .ok report) :
    (∃ d : Document, d.bytes = document) ∧
      ∀ d d' : Document, d.bytes = document → KeptKeysDistinct d.value → Respelled d.value d'.value →
        parse d'.bytes = .ok report := by
  refine ⟨exists_document ok, ?_⟩
  rintro d d' rfl distinct same
  rw [parse_eq_ok_iff] at ok ⊢
  exact value?_respelled distinct same ok

def Report.compactDocument : Document where
  before := []
  value := .object [] [
    ⟨[], .plain "platform", [], [], .string (.plain "🚀"), []⟩,
    ⟨[], .plain "throughput", [], [], .object [] [
      ⟨[], .plain "b", [], [], .null, []⟩,
      ⟨[], .plain "a", [], [], .bool true, []⟩], []⟩]
  after := []

def Report.spreadDocument : Document where
  before := [.tab]
  value := .object [] [
    ⟨[], .plain "throughput", [], [.space], .object [.lineFeed] [
      ⟨[], [.unit (.ofNat 0 false) (.ofNat 0 false) (.ofNat 6 false) (.ofNat 1 false)], [], [],
        .bool true, []⟩,
      ⟨[.space], .plain "b", [.space], [], .null, []⟩], []⟩,
    ⟨[.lineFeed], .plain "platform", [], [.space], .string [
      .unit (.ofNat 13 false) (.ofNat 8 false) (.ofNat 3 false) (.ofNat 13 true),
      .unit (.ofNat 13 false) (.ofNat 14 false) (.ofNat 8 false) (.ofNat 0 false)], [.lineFeed]⟩]
  after := [.lineFeed]

theorem Report.parse_respelled_spread :
    let report : Report := {
      platform := some "🚀"
      throughput := some (.object [("a", .bool true), ("b", .null)]) }
    parseText "\x7b\"platform\":\"🚀\",\"throughput\":\x7b\"b\":null,\"a\":true\x7d\x7d" = .ok report ∧
      parseText ("\t\x7b\"throughput\": \x7b\n\"\\u0061\":true, \"b\" :null\x7d,\n" ++
        "\"platform\": \"\\ud83D\\ude80\"\n\x7d\n") = .ok report := by
  intro report
  have read : parse compactDocument.bytes = .ok report := by
    rw [parse_eq_ok_iff]
    cbv
  have distinct : KeptKeysDistinct compactDocument.value := by
    intro given fields
    cbv at fields
    cases fields
    refine ⟨fun latency found => ?_, fun throughput found => ?_⟩
    · cbv at found
      cases found
    · cbv at found
      cases found
      exact ⟨by decide +kernel, trivial, trivial, trivial⟩
  have same : Respelled compactDocument.value spreadDocument.value := by
    refine ⟨[_, _], ⟨rfl, ?platform, rfl, ?throughput, trivial⟩, .swap _ _ _⟩
    case platform => rfl
    case throughput =>
      refine ⟨[_, _], ⟨rfl, ?_, ?_⟩, .swap _ _ _⟩
      · trivial
      · exact ⟨rfl, rfl, trivial⟩
  have compact : compactDocument.bytes = Utf8.ofString
      "\x7b\"platform\":\"🚀\",\"throughput\":\x7b\"b\":null,\"a\":true\x7d\x7d" := by decide
  have spread : spreadDocument.bytes = Utf8.ofString
      ("\t\x7b\"throughput\": \x7b\n\"\\u0061\":true, \"b\" :null\x7d,\n" ++
        "\"platform\": \"\\ud83D\\ude80\"\n\x7d\n") := by decide
  rw [parseText, parseText, ← compact, ← spread]
  exact ⟨read, (parse_respelled read).2 compactDocument spreadDocument rfl distinct same⟩

end LatencyGate
