import Mathlib
import LatencyGate.Proofs.Comparison.Figures
import LatencyGate.Proofs.Output.Lossless
import LatencyGate.Proofs.Report.Counts

namespace LatencyGate

open Json Json.Spelling

/-! ## Figures -/

theorem Metric.member?_reference {reference target difference : String}
    (distinct : [reference, target, "ratio", difference].Nodup) (m : Metric) :
    (ofMembers (m.members reference target difference)).member? reference =
      some (.number (.natural m.reference)) := by
  rw [member?_ofMembers (by exact distinct)]
  simp [members]

theorem Metric.member?_target {reference target difference : String}
    (distinct : [reference, target, "ratio", difference].Nodup) (m : Metric) :
    (ofMembers (m.members reference target difference)).member? target =
      some (.number (.natural m.target)) := by
  rw [member?_ofMembers (by exact distinct)]
  simp only [List.nodup_cons, List.mem_cons, List.not_mem_nil, or_false, not_or] at distinct
  simp [members, lookup_member, Ne.symm distinct.1.1]

/-- How a figure is shown that the reference gives at one place and the target at another. An object
with a member for each of the two stands for it if a positive integer is written in the reference.
The target may say anything; what is no positive integer is zero. -/
structure Shape (missing : Option Json) (referenceKey targetKey : String)
    (given given' : Option Spelling) (shown : Option Json) : Prop where
  shown_iff : shown ≠ missing ↔ ∃ n, given.bind positive? = some n
  reference : ∀ n, given.bind positive? = some n →
    shown.bind (Json.member? referenceKey) = some (.number (.natural n))
  target : ∀ n, given.bind positive? = some n →
    shown.bind (Json.member? targetKey) = some (.number (.natural (count given')))

section
variable {given given' : Option Spelling} {figure : Option Metric}
  (figures : figure = Metric.ofFigures? (count given) (count given'))
include figures

theorem shape_of_counts {missing shown : Option Json} {reference target difference : String}
    (distinct : [reference, target, "ratio", difference].Nodup)
    (unrelated : figure = none → shown = missing)
    (related : ∀ m, figure = some m → shown = ofMembers (m.members reference target difference))
    (other : ∀ members, missing ≠ ofMembers members) :
    Shape missing reference target given given' shown := by
  cases positive : given.bind positive? with
  | none =>
      have zero : count given = 0 := by rw [count, positive, Option.getD_none]
      have left_out : shown = missing := unrelated (figures.trans (if_pos zero))
      constructor
      all_goals simp [positive, left_out]
  | some n =>
      have counted : count given = n := by rw [count, positive, Option.getD_some]
      obtain ⟨v, -, written⟩ := Option.bind_eq_some_iff.1 positive
      rw [counted, Metric.ofFigures?_eq_some (ne_zero_of_positive? written)] at figures
      rw [related _ figures]
      constructor
      case shown_iff => exact iff_of_true (other _).symm ⟨n, positive⟩
      case reference =>
        intro k same
        obtain rfl := Option.some.inj (positive.symm.trans same)
        rw [Option.bind_some, Metric.member?_reference distinct]
      case target =>
        intro _ _
        rw [Option.bind_some, Metric.member?_target distinct]

theorem shape_latency :
    Shape (some .null) "reference_p99_ns" "target_p99_ns" given given'
      (some ((figure.map Comparison.latencyJson).getD .null)) := by
  have distinct : ["reference_p99_ns", "target_p99_ns", "ratio", "diff_ns"].Nodup := by decide
  refine shape_of_counts figures distinct (fun unrelated => ?_) (fun m related => ?_) nofun
  · rw [unrelated]
    rfl
  · rw [related]
    rfl

theorem shape_secondary :
    Shape none "reference" "target" given given' (figure.map Comparison.metricJson) := by
  have distinct : ["reference", "target", "ratio", "diff"].Nodup := by decide
  refine shape_of_counts figures distinct (fun unrelated => ?_) (fun m related => ?_) nofun
  · rw [unrelated]
    rfl
  · rw [related]
    rfl

end

/-! ## Comparisons -/

structure ShowsPlaces (w w' : Spelling) (v : Json) : Prop where
  latency : Shape (some .null) "reference_p99_ns" "target_p99_ns" (nested? "latency" "p99_ns" w)
    (nested? "latency" "p99_ns" w') (v.member? "latency")
  throughput : Shape none "reference" "target" (nested? "throughput" "inferences_per_sec" w)
    (nested? "throughput" "inferences_per_sec" w') (v.member? "throughput")
  wcet : Shape none "reference" "target" (nested? "latency" "wcet_bound_ns" w)
    (nested? "latency" "wcet_bound_ns" w') (v.member? "wcet")

theorem Comparison.showsPlaces {a b : Report} {w w' : Spelling} (reference : a.Counts w)
    (target : b.Counts w') : ShowsPlaces w w' (ofReports a b).json where
  latency := by
    rw [member?_latency]
    exact shape_latency (congrArg₂ Metric.ofFigures? reference.p99 target.p99)
  throughput := by
    rw [member?_throughput]
    exact shape_secondary (congrArg₂ Metric.ofFigures? reference.inferenceRate target.inferenceRate)
  wcet := by
    rw [member?_wcet]
    exact shape_secondary (congrArg₂ Metric.ofFigures? reference.wcetBound target.wcetBound)

/-! ## Documents -/

namespace Report

structure AcceptedAsObjects (d : Document) : Prop extends WrittenAsObjects d.value where
  accepted : ∃ r, parse d.bytes = .ok r

theorem AcceptedAsObjects.exists_counts {d : Document} (accepted : AcceptedAsObjects d)
    {files : Files} {path : String} (contents : files path = .ok d.bytes) :
    ∃ r, load files path = .ok r ∧ r.Counts d.value := by
  obtain ⟨r, read⟩ := accepted.accepted
  have counts := counts_of_value? accepted.toWrittenAsObjects ((parse_eq_ok_iff d).1 read)
  exact ⟨r, by simp only [load, contents, read], counts⟩

def figuresDocument (latency throughput : Spelling) : Document :=
  .plain (.object [] [plainMember "latency" latency, plainMember "throughput" throughput])

theorem acceptedAsObjects_figuresDocument {inside : Gap} {members : List Member}
    {throughput : Spelling} (accepted :
      (meaning.value? (figuresDocument (.object inside members) throughput).value).isSome) :
    AcceptedAsObjects (figuresDocument (.object inside members) throughput) where
  report := ⟨_, _, rfl⟩
  latency v last := by
    have key : Literal.text? (.plain "latency") = some "latency" := by decide +kernel
    have other : Literal.text? (.plain "throughput") ≠ some "latency" := by decide +kernel
    rw [figuresDocument, Document.plain, lastMember?, named_cons_of_key key,
      named_cons_of_other other] at last
    obtain rfl := Option.some.inj last
    exact .inr ⟨inside, members, rfl⟩
  accepted := by
    simp only [parse_eq_ok_iff]
    exact Option.isSome_iff_exists.1 accepted

/-- A positive integer stands in a document for those of the three figures that are told, and for no
other. -/
structure Tells (p99 rate bound : Bool) (w : Spelling) : Prop where
  p99 : ((nested? "latency" "p99_ns" w).bind positive?).isSome = p99
  rate : ((nested? "throughput" "inferences_per_sec" w).bind positive?).isSome = rate
  bound : ((nested? "latency" "wcet_bound_ns" w).bind positive?).isSome = bound

theorem exists_tells (p99 rate bound : Bool) :
    ∃ d, AcceptedAsObjects d ∧ Tells p99 rate bound d.value := by
  let figure (told : Bool) : Spelling := if told then .number (.single 7) else .null
  let latency := [plainMember "p99_ns" (figure p99), plainMember "wcet_bound_ns" (figure bound)]
  let throughput : Spelling := .object [] [plainMember "inferences_per_sec" (figure rate)]
  refine ⟨figuresDocument (.object [] latency) throughput,
    acceptedAsObjects_figuresDocument ?accepted, ?p99, ?rate, ?bound⟩
  all_goals
    revert p99 rate bound
    decide +kernel

end Report

/-- A comparison in JSON of two documents that are written as objects is one value, which has a figure
if and only if a positive integer is written at its place in the reference. The figures do not depend
on each other: every combination of them has a reference. -/
theorem comparison_shape :
    (∀ (files : Files) (settings : ComparisonSettings) (d d' : Document), settings.json = true →
      files settings.reference = .ok d.bytes → files settings.target = .ok d'.bytes →
      Report.AcceptedAsObjects d → Report.AcceptedAsObjects d' →
        ∃ v : Json, Recovers some v (runComparison files settings .unlimited).sink.written ∧
          ShowsPlaces d.value d'.value v) ∧
    ∀ p99 rate bound : Bool,
      ∃ d, Report.AcceptedAsObjects d ∧ Report.Tells p99 rate bound d.value := by
  refine ⟨fun files settings d d' json first second accepted accepted' => ?_, Report.exists_tells⟩
  obtain ⟨a, loaded, counts⟩ := accepted.exists_counts first
  obtain ⟨b, loaded', counts'⟩ := accepted'.exists_counts second
  let c := Comparison.ofReports a b
  have written : (runComparison files settings .unlimited).sink.written =
      jsonLine c.json c.lines := by
    rw [runComparison, execute_unlimited loaded loaded', jsonLine_eq_ofString, json]
  rw [written]
  exact ⟨c.json, recovers_jsonLine c.everywhere_json rfl c.lines,
    Comparison.showsPlaces counts counts'⟩

namespace Report

def greatestDigits : Digits := [8, 4, 4, 6, 7, 4, 4, 0, 7, 3, 7, 0, 9, 5, 5, 1, 6, 1, 5].map digit

theorem leading_greatestDigits : digit 1 = 0 → greatestDigits = [] := by
  decide

def lopsidedReference : Document :=
  figuresDocument
    (.object [] [plainMember "p99_ns" .null, plainMember "wcet_bound_ns"
      (.number ⟨false, digit 1, greatestDigits, leading_greatestDigits, none, none⟩)])
    (.object [] [plainMember "inferences_per_sec" (.string []),
      plainMember "inferences_per_sec" (.number (.single 7))])

def lopsidedTarget : Document :=
  figuresDocument
    (.object [] [plainMember "p99_ns" (.number (.single 7)),
      plainMember "wcet_bound_ns" (.number (.scaled 1 3 []))])
    (.array [] [])

end Report

theorem comparison_shape_lopsided :
    let files : Files := fun path => .ok
      (if path = "old.json" then Report.lopsidedReference.bytes else Report.lopsidedTarget.bytes)
    let settings : ComparisonSettings := ⟨"old.json", "new.json", true⟩
    Report.AcceptedAsObjects Report.lopsidedReference ∧
      Report.AcceptedAsObjects Report.lopsidedTarget ∧
      ∃ v : Json, Recovers some v (runComparison files settings .unlimited).sink.written ∧
        v.member? "latency" = some .null ∧
        (v.member? "throughput").bind (member? "reference") = some (.number (.natural 7)) ∧
        (v.member? "throughput").bind (member? "target") = some (.number (.natural 0)) ∧
        (v.member? "wcet").bind (member? "reference") =
          some (.number (.natural 18446744073709551615)) ∧
        (v.member? "wcet").bind (member? "target") = some (.number (.natural 0)) := by
  intro files settings
  have accepted : Report.AcceptedAsObjects Report.lopsidedReference :=
    Report.acceptedAsObjects_figuresDocument (by decide +kernel)
  have accepted' : Report.AcceptedAsObjects Report.lopsidedTarget :=
    Report.acceptedAsObjects_figuresDocument (by decide +kernel)
  obtain ⟨v, line, shows⟩ :=
    comparison_shape.1 files settings _ _ rfl rfl rfl accepted accepted'
  have p99 : (nested? "latency" "p99_ns" Report.lopsidedReference.value).bind positive? = none := by
    decide +kernel
  have rate : (nested? "throughput" "inferences_per_sec" Report.lopsidedReference.value).bind
      positive? = some 7 := by decide +kernel
  have bound : (nested? "latency" "wcet_bound_ns" Report.lopsidedReference.value).bind positive? =
      some 18446744073709551615 := by decide +kernel
  have rate' : count (nested? "throughput" "inferences_per_sec" Report.lopsidedTarget.value) = 0 := by
    decide +kernel
  have bound' : count (nested? "latency" "wcet_bound_ns" Report.lopsidedTarget.value) = 0 := by
    decide +kernel
  have unshown : v.member? "latency" = some .null := by
    by_contra shown
    obtain ⟨n, positive⟩ := shows.latency.shown_iff.1 shown
    rw [p99] at positive
    cases positive
  exact ⟨accepted, accepted', v, line, unshown, shows.throughput.reference _ rate,
    rate' ▸ shows.throughput.target _ rate, shows.wcet.reference _ bound,
    bound' ▸ shows.wcet.target _ bound⟩

end LatencyGate
