import Mathlib
import LatencyGate.Proofs.Report.LooseFields

namespace LatencyGate.Report

open Json Json.Spelling

/-- A member with this key, which is no field's, is added to the report or to its latency block. -/
inductive Extends (key : Literal) : Spelling → Spelling → Prop
  | report {w w' : Spelling}
    (unread : ∀ k ∈ ["platform", "output_hash", "latency", "throughput"],
      Literal.text? key ≠ some k)
    (adds : AddsMember key w w') : Extends key w w'
  | latency {l l' w w' : Spelling}
    (unread : ∀ k ∈ ["p99_ns", "wcet_bound_ns"], Literal.text? key ≠ some k)
    (adds : AddsMember key l l') (replaces : Replaces meaning.names "latency" l l' w w') :
      Extends key w w'

inductive Extended : List Literal → Spelling → Spelling → Prop
  | refl (w : Spelling) : Extended [] w w
  | step {key : Literal} {keys : List Literal} {w w' w'' : Spelling} (extends' : Extends key w w')
    (extended : Extended keys w' w'') : Extended (key :: keys) w w''

theorem value?_extends_iff {key : Literal} {w w' : Spelling} (extended : Extends key w w')
    {r : Report} :
    meaning.value? w' = some r ↔ (Literal.text? key).isSome ∧ meaning.value? w = some r := by
  cases extended with
  | report unread adds => exact meaning.value?_addsMember_iff unread adds
  | @latency l l' _ _ unread adds replaces =>
      have block {latency : Latency} : Latency.meaning.value? l' = some latency ↔
          (Literal.text? key).isSome ∧ Latency.meaning.value? l = some latency :=
        Latency.meaning.value?_addsMember_iff unread adds
      obtain ⟨present, present'⟩ := adds.ne_null
      constructor
      · intro read
        obtain ⟨latency, found, kept, eq⟩ :=
          value?_replaces_latency present' present replaces.symm read
        obtain ⟨text, found⟩ := block.1 found
        exact ⟨text, by rw [eq, found, Option.map_some, ← kept]⟩
      · rintro ⟨text, read⟩
        obtain ⟨latency, found, kept, eq⟩ := value?_replaces_latency present present' replaces read
        rw [eq, block.2 ⟨text, found⟩, Option.map_some, ← kept]

theorem value?_extended_iff {keys : List Literal} {w w' : Spelling} (extended : Extended keys w w')
    {r : Report} :
    meaning.value? w' = some r ↔
      (∀ key ∈ keys, (Literal.text? key).isSome) ∧ meaning.value? w = some r := by
  induction extended with
  | refl => simp
  | step extends' _ ih =>
      rw [ih, value?_extends_iff extends', List.forall_mem_cons, and_left_comm, and_assoc]

/-- After any number of members were added that are not read, a document is accepted if and only if
all their keys are texts, and then it says the same. -/
theorem parse_extended_iff {document : Bytes} {report : Report} (ok : parse document = .ok report) :
    (∃ d : Document, d.bytes = document) ∧
      ∀ (d d' : Document) (keys : List Literal), d.bytes = document →
        Extended keys d.value d'.value →
          ((∃ r, parse d'.bytes = .ok r) ↔ ∀ key ∈ keys, (Literal.text? key).isSome) ∧
            ∀ r, parse d'.bytes = .ok r → r = report := by
  refine ⟨exists_document ok, ?_⟩
  rintro d d' keys rfl extended
  rw [parse_eq_ok_iff] at ok
  simp only [parse_eq_ok_iff, value?_extended_iff extended, ok]
  refine ⟨⟨fun ⟨_, texts, _⟩ => texts, fun texts => ⟨report, texts, rfl⟩⟩, ?_⟩
  rintro r ⟨-, same⟩
  exact (Option.some.inj same).symm

def garbled : Literal :=
  [.unit (.ofNat 13 false) (.ofNat 8 false) (.ofNat 0 false) (.ofNat 0 false)]

def garbledMember (v : Spelling) : Member := ⟨[], garbled, [], [], v, []⟩

def buildMember : Member :=
  plainMember "build" (.array [] [plainItem (.array [] [plainItem (.number (.scaled 1 9 [9, 9]))])])

def rebuildMember : Member := plainMember "build" (.object [] [garbledMember .null])

def latencyMember (members : List Member) : Member :=
  plainMember "latency" (.object [] (plainMember "p99_ns" (.number (.single 7)) :: members))

theorem parse_extended_iff_thrice :
    let report : Report := { latency := some { p99 := some 7 } }
    parseText "\x7b\"latency\":\x7b\"p99_ns\":7\x7d\x7d" = .ok report ∧
      parseText ("\x7b\"build\":[[1e999]],\"latency\":\x7b\"p99_ns\":7,\"mean_ns\":\"\\ud800\"\x7d," ++
        "\"build\":\x7b\"\\ud800\":null\x7d\x7d") = .ok report := by
  intro report
  let mean : Member := plainMember "mean_ns" (.string garbled)
  let long : Spelling := .object [] [buildMember, latencyMember [mean], rebuildMember]
  have built : Extends buildMember.key (latencyDocument []).value
      (.object [] [buildMember, latencyMember []]) :=
    .report (by decide +kernel) (.intro [] [] buildMember [latencyMember []])
  have measured : Extends mean.key (.object [] [buildMember, latencyMember []])
      (.object [] [buildMember, latencyMember [mean]]) :=
    .latency (by decide +kernel) (.intro [] [_] mean [])
      (.member [] [buildMember] (latencyMember []) [] (by decide +kernel) rfl)
  have rebuilt : Extends rebuildMember.key (.object [] [buildMember, latencyMember [mean]]) long :=
    .report (by decide +kernel) (.intro [] [buildMember, _] rebuildMember [])
  have short : (latencyDocument []).bytes =
      Utf8.ofString "\x7b\"latency\":\x7b\"p99_ns\":7\x7d\x7d" := by decide
  have bytes : (Document.plain long).bytes = Utf8.ofString
      ("\x7b\"build\":[[1e999]],\"latency\":\x7b\"p99_ns\":7,\"mean_ns\":\"\\ud800\"\x7d," ++
        "\"build\":\x7b\"\\ud800\":null\x7d\x7d") := by decide
  obtain ⟨accepted, same⟩ := (parse_extended_iff parse_latencyDocument).2 (latencyDocument [])
    (.plain long) [buildMember.key, mean.key, rebuildMember.key] rfl
    (.step built (.step measured (.step rebuilt (.refl _))))
  obtain ⟨r, read⟩ := accepted.2 (by decide +kernel)
  obtain rfl := same r read
  rw [parseText, parseText, ← short, ← bytes]
  exact ⟨parse_latencyDocument, read⟩

theorem extended_garbled_refused :
    let document : Document :=
      .plain (.object [] [garbledMember (.number (.single 1)), latencyMember []])
    Extended [garbled] (latencyDocument []).value document.value ∧
      (latencyDocument []).bytes = Utf8.ofString "\x7b\"latency\":\x7b\"p99_ns\":7\x7d\x7d" ∧
      document.bytes =
        Utf8.ofString "\x7b\"\\ud800\":1,\"latency\":\x7b\"p99_ns\":7\x7d\x7d" ∧
      (∃ r, parse (latencyDocument []).bytes = .ok r) ∧ ¬∃ r, parse document.bytes = .ok r := by
  intro document
  have extended : Extended [garbled] (latencyDocument []).value document.value :=
    .step (.report (by decide +kernel) (.intro [] [] (garbledMember _) [latencyMember []])) (.refl _)
  refine ⟨extended, by decide, by decide, ⟨_, parse_latencyDocument⟩, ?_⟩
  rintro ⟨r, ok⟩
  rw [parse_eq_ok_iff, value?_extended_iff extended] at ok
  exact absurd ok.1 (by decide +kernel)

end LatencyGate.Report
