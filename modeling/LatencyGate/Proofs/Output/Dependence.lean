import Mathlib
import LatencyGate.Proofs.Report.Defaults
import LatencyGate.Proofs.Report.LooseFields
import LatencyGate.Proofs.Run.Execution

namespace LatencyGate

open Json Json.Spelling

structure LoadsBoth (files : Files) (first second : String) (a b : Report) : Prop where
  first : Report.load files first = .ok a
  second : Report.load files second = .ok b

structure SameEffect {α : Type} (run run' : Execution α) : Prop where
  result : run.result = run'.result
  sink : run.sink = run'.sink

section
variable {α : Type} {files files' : Files} {first second : String} {a b a' b' : Report}
  {derive : Report → Report → α} {event : α → Event} {pieces : α → List String}

theorem execute_of_loaded (loads : LoadsBoth files first second a b) (sink : Sink) :
    (execute files first second sink derive event pieces).result =
        (if (sink.putAll (pieces (derive a b))).1 then .ok (derive a b) else .error .unwritable) ∧
      (execute files first second sink derive event pieces).sink =
        (sink.putAll (pieces (derive a b))).2 := by
  simp only [execute, loadBoth, loads.first, loads.second]
  cases sink.putAll (pieces (derive a b)) with
  | mk fits sink => cases fits <;> exact ⟨rfl, rfl⟩

theorem sameEffect_execute (loads : LoadsBoth files first second a b)
    (loads' : LoadsBoth files' first second a' b') (derived : derive a b = derive a' b')
    (sink : Sink) :
    SameEffect (execute files first second sink derive event pieces)
      (execute files' first second sink derive event pieces) := by
  constructor
  · rw [(execute_of_loaded loads sink).1, (execute_of_loaded loads' sink).1, derived]
  · rw [(execute_of_loaded loads sink).2, (execute_of_loaded loads' sink).2, derived]

theorem sink_execute_eq (loads : LoadsBoth files first second a b)
    (loads' : LoadsBoth files' first second a' b')
    (same : pieces (derive a b) = pieces (derive a' b')) (sink : Sink) :
    (execute files first second sink derive event pieces).sink =
      (execute files' first second sink derive event pieces).sink := by
  rw [(execute_of_loaded loads sink).2, (execute_of_loaded loads' sink).2, same]

end

structure AgreeInText (a b a' b' : Report) : Prop where
  reference_p99 : a.p99 = a'.p99
  target_p99 : b.p99 = b'.p99
  reference_name : a.platformName = a'.platformName
  target_name : b.platformName = b'.platformName
  identical : identicalOutputs a.hash b.hash = identicalOutputs a'.hash b'.hash

structure AgreeInJson (a b a' b' : Report) : Prop extends AgreeInText a b a' b' where
  reference_rate : a.inferenceRate = a'.inferenceRate
  target_rate : b.inferenceRate = b'.inferenceRate
  reference_bound : a.wcetBound = a'.wcetBound
  target_bound : b.wcetBound = b'.wcetBound

theorem Comparison.lines_congr {c c' : Comparison}
    (reference : c.referencePlatform = c'.referencePlatform)
    (target : c.targetPlatform = c'.targetPlatform) (latency : c.latency = c'.latency)
    (identical : c.identical = c'.identical) : c.lines = c'.lines := by
  unfold lines latencyLines identityText
  rw [reference, target, latency, identical]

theorem AgreeInText.lines_eq {a b a' b' : Report} (agree : AgreeInText a b a' b') :
    (Comparison.ofReports a b).lines = (Comparison.ofReports a' b').lines := by
  have latency : Metric.ofFigures? a.p99 b.p99 = Metric.ofFigures? a'.p99 b'.p99 := by
    rw [agree.reference_p99, agree.target_p99]
  exact Comparison.lines_congr agree.reference_name agree.target_name latency agree.identical

theorem AgreeInJson.ofReports_eq {a b a' b' : Report} (agree : AgreeInJson a b a' b') :
    Comparison.ofReports a b = Comparison.ofReports a' b' := by
  obtain ⟨⟨p99, p99', name, name', identical⟩, rate, rate', bound, bound'⟩ := agree
  simp only [Comparison.ofReports, p99, p99', name, name', identical, rate, rate', bound, bound']

theorem AgreeInJson.of_sameFigures {a b a' b' : Report} (same : a.SameFigures a')
    (same' : b.SameFigures b') : AgreeInJson a b a' b' where
  reference_p99 := same.p99
  target_p99 := same'.p99
  reference_name := same.platformName
  target_name := same'.platformName
  identical := by rw [same.hash, same'.hash]
  reference_rate := same.inferenceRate
  target_rate := same'.inferenceRate
  reference_bound := same.wcetBound
  target_bound := same'.wcetBound

def AlikeAt (files files' : Files) (path : String) : Prop :=
  ∃ d d' : Json.Document, files path = .ok d.bytes ∧ files' path = .ok d'.bytes ∧
    Report.Alike d.value d'.value

theorem load_alike {files files' : Files} {path : String} (alike : AlikeAt files files' path)
    {a : Report} (loaded : Report.load files path = .ok a) :
    ∃ a', Report.load files' path = .ok a' ∧ a.SameFigures a' := by
  obtain ⟨d, d', here, here', alike⟩ := alike
  rw [Report.load, here] at loaded
  cases read : Report.parse d.bytes with
  | error e => simp [read] at loaded
  | ok r =>
      simp only [read, Except.ok.injEq] at loaded
      subst loaded
      obtain ⟨r', read', same⟩ := Report.parse_alike alike read
      exact ⟨r', by rw [Report.load, here']; simp [read'], same⟩

variable {files files' : Files}

theorem sameEffect_runGate {settings : GateSettings} {a b a' b' : Report}
    (loads : LoadsBoth files settings.baseline settings.current a b)
    (loads' : LoadsBoth files' settings.baseline settings.current a' b')
    (baseline : a.p99 = a'.p99) (current : b.p99 = b'.p99) (sink : Sink) :
    SameEffect (runGate files settings sink) (runGate files' settings sink) :=
  sameEffect_execute loads loads' (by simp only [Outcome.ofReports, baseline, current]) sink

theorem sink_runComparison_eq {settings : ComparisonSettings} {a b a' b' : Report}
    (loads : LoadsBoth files settings.reference settings.target a b)
    (loads' : LoadsBoth files' settings.reference settings.target a' b')
    (text : settings.json = false) (agree : AgreeInText a b a' b') (sink : Sink) :
    (runComparison files settings sink).sink = (runComparison files' settings sink).sink := by
  refine sink_execute_eq loads loads' ?_ sink
  simp only [text, pieces, Bool.false_eq_true, if_false, agree.lines_eq]

theorem sameEffect_runComparison {settings : ComparisonSettings} {a b a' b' : Report}
    (loads : LoadsBoth files settings.reference settings.target a b)
    (loads' : LoadsBoth files' settings.reference settings.target a' b')
    (agree : AgreeInJson a b a' b') (sink : Sink) :
    SameEffect (runComparison files settings sink) (runComparison files' settings sink) :=
  sameEffect_execute loads loads' agree.ofReports_eq sink

theorem loadsBoth_alike {first second : String} (alike : AlikeAt files files' first)
    (alike' : AlikeAt files files' second) {a b : Report}
    (loads : LoadsBoth files first second a b) :
    ∃ a' b', LoadsBoth files' first second a' b' ∧ a.SameFigures a' ∧ b.SameFigures b' := by
  obtain ⟨a', loaded, same⟩ := load_alike alike loads.first
  obtain ⟨b', loaded', same'⟩ := load_alike alike' loads.second
  exact ⟨a', b', ⟨loaded, loaded'⟩, same, same'⟩

/-- Whatever the files are otherwise, runs on reports that agree on the figures an output is made of
write that output alike; and reports that differ only in how they say nothing agree on all of
them. -/
theorem outputs_depend_on_figures (files files' : Files) (sink : Sink) :
    (∀ (settings : GateSettings) (a b a' b' : Report),
      LoadsBoth files settings.baseline settings.current a b →
      LoadsBoth files' settings.baseline settings.current a' b' →
      a.p99 = a'.p99 → b.p99 = b'.p99 →
        SameEffect (runGate files settings sink) (runGate files' settings sink)) ∧
    (∀ (settings : ComparisonSettings) (a b a' b' : Report),
      LoadsBoth files settings.reference settings.target a b →
      LoadsBoth files' settings.reference settings.target a' b' →
        (settings.json = false → AgreeInText a b a' b' →
          (runComparison files settings sink).sink = (runComparison files' settings sink).sink) ∧
        (AgreeInJson a b a' b' →
          SameEffect (runComparison files settings sink) (runComparison files' settings sink))) ∧
    (∀ (settings : GateSettings) (a b : Report), AlikeAt files files' settings.baseline →
      AlikeAt files files' settings.current →
      LoadsBoth files settings.baseline settings.current a b →
        SameEffect (runGate files settings sink) (runGate files' settings sink)) ∧
    ∀ (settings : ComparisonSettings) (a b : Report), AlikeAt files files' settings.reference →
      AlikeAt files files' settings.target →
      LoadsBoth files settings.reference settings.target a b →
        SameEffect (runComparison files settings sink) (runComparison files' settings sink) := by
  refine ⟨?gate, ?comparison, ?alikeGate, ?alikeComparison⟩
  case gate =>
    intro settings a b a' b' loads loads' baseline current
    exact sameEffect_runGate loads loads' baseline current sink
  case comparison =>
    intro settings a b a' b' loads loads'
    exact ⟨fun text agree => sink_runComparison_eq loads loads' text agree sink,
      fun agree => sameEffect_runComparison loads loads' agree sink⟩
  case alikeGate =>
    intro settings a b alike alike' loads
    obtain ⟨a', b', loads', same, same'⟩ := loadsBoth_alike alike alike' loads
    exact sameEffect_runGate loads loads' same.p99 same'.p99 sink
  case alikeComparison =>
    intro settings a b alike alike' loads
    obtain ⟨a', b', loads', same, same'⟩ := loadsBoth_alike alike alike' loads
    exact sameEffect_runComparison loads loads' (.of_sameFigures same same') sink

namespace Json.Spelling

def plainMembers (fields : List (String × Spelling)) : List Member :=
  fields.map fun field => plainMember field.1 field.2

theorem keyed?_plainMembers {fields : List (String × Spelling)}
    (plain : ∀ field ∈ fields, Literal.text? (.plain field.1) = some field.1) :
    keyed? (plainMembers fields) = some fields := by
  induction fields with
  | nil => rfl
  | cons field fields ih =>
      obtain ⟨key, plain⟩ := List.forall_mem_cons.1 plain
      have others := ih plain
      rw [plainMembers] at others ⊢
      rw [List.map_cons, keyed?_cons, plainMember, key, others]
      rfl

end Json.Spelling

namespace Report

def wordyLatency : List (String × Spelling) := [
  ("wcet_bound_ns", .number (.scaled 2 5 [])), ("p99_ns", .number (.single 7))]

def wordyFields : List (String × Spelling) := [
  ("platform", .string (.plain "unknown")), ("output_hash", .null),
  ("latency", .object [] (plainMembers wordyLatency)),
  ("throughput", .object [] [plainMember "inferences_per_sec" (.number (.single 0))])]

def wordyDocument : Document := .plain (.object [] (plainMembers wordyFields))

theorem alike_wordyLatency :
    Latency.Alike (some (.object [] [plainMember "p99_ns" (.number (.single 7))]))
      (some (.object [] (plainMembers wordyLatency))) := by
  have keys : keyed? (plainMembers [("p99_ns", .number (.single 7))]) =
      some [("p99_ns", .number (.single 7))] := keyed?_plainMembers (by decide +kernel)
  have keys' : keyed? (plainMembers wordyLatency) = some wordyLatency :=
    keyed?_plainMembers (by decide +kernel)
  have float : natural? (.number (.scaled 2 5 [])) = none := by decide +kernel
  refine .blocks (fields?_object.2 ⟨_, keys, by decide, rfl⟩)
    (fields?_object.2 ⟨_, keys', by decide, rfl⟩) (.inl rfl) (.of_missing (.inr ⟨?loose, ?none⟩))
  case loose => exact ⟨by decide, .number (by decide +kernel)⟩
  case none => exact fun n natural => by simp [float] at natural

theorem alike_wordyDocument : Alike (latencyDocument []).value wordyDocument.value := by
  have keys : keyed? (plainMembers
      [("latency", .object [] [plainMember "p99_ns" (.number (.single 7))])]) =
      some [("latency", .object [] [plainMember "p99_ns" (.number (.single 7))])] :=
    keyed?_plainMembers (by decide +kernel)
  have keys' : keyed? (plainMembers wordyFields) = some wordyFields :=
    keyed?_plainMembers (by decide +kernel)
  have key : Literal.text? (.plain "inferences_per_sec") = some "inferences_per_sec" := by
    decide +kernel
  have zero : natural? (.number (.single 0)) = some 0 := by decide +kernel
  refine .intro (fields?_object.2 ⟨_, keys, by decide, rfl⟩)
    (fields?_object.2 ⟨_, keys', by decide, rfl⟩) (.of_missing (.inr ?platform))
    (.of_missing (.inl rfl)) alike_wordyLatency (.of_missing (.inr ⟨⟨by decide, ?readable⟩, ?none⟩))
  case platform => exact (by decide +kernel : text? (.string (.plain "unknown")) = some "unknown")
  case readable =>
    refine .object (fun m mem => ?_) fun m mem => ?_
    · obtain rfl := List.mem_singleton.1 mem
      decide +kernel
    · obtain rfl := List.mem_singleton.1 mem
      exact .number (by decide +kernel)
  case none =>
    intro u rate n natural
    rw [lastMember?, named_cons_of_key key, Option.mem_def] at rate
    obtain rfl := Option.some.inj rate
    exact Option.some.inj (natural.symm.trans zero)

end Report

theorem outputs_depend_on_figures_wordy :
    let files : Files := fun _ => .ok (Report.latencyDocument []).bytes
    let files' : Files := fun _ => .ok Report.wordyDocument.bytes
    let gate : GateSettings := ⟨"old.json", "new.json", .zero, false⟩
    let text : ComparisonSettings := ⟨"old.json", "new.json", false⟩
    let json : ComparisonSettings := ⟨"old.json", "new.json", true⟩
    ∃ a a', LoadsBoth files "old.json" "new.json" a a ∧
      LoadsBoth files' "old.json" "new.json" a' a' ∧
      AgreeInJson a a a' a' ∧ AlikeAt files files' "old.json" ∧ AlikeAt files files' "new.json" ∧
      SameEffect (runGate files gate .unlimited) (runGate files' gate .unlimited) ∧
      (runComparison files text .unlimited).sink = (runComparison files' text .unlimited).sink ∧
      SameEffect (runComparison files json .unlimited) (runComparison files' json .unlimited) := by
  intro files files' gate text json
  have alike (path : String) : AlikeAt files files' path :=
    ⟨_, _, rfl, rfl, Report.alike_wordyDocument⟩
  obtain ⟨a', read', same⟩ := Report.parse_alike Report.alike_wordyDocument
    Report.parse_latencyDocument
  have loaded (path : String) :
      Report.load files path = .ok { latency := some { p99 := some 7 } } := by
    simp only [Report.load, files, Report.parse_latencyDocument]
  have loaded' (path : String) : Report.load files' path = .ok a' := by
    simp only [Report.load, files', read']
  have loads : LoadsBoth files "old.json" "new.json" _ _ := ⟨loaded _, loaded _⟩
  have loads' : LoadsBoth files' "old.json" "new.json" a' a' := ⟨loaded' _, loaded' _⟩
  have agree := AgreeInJson.of_sameFigures same same
  obtain ⟨gateRuns, comparisonRuns, -, alikeRuns⟩ :=
    outputs_depend_on_figures files files' .unlimited
  exact ⟨_, a', loads, loads', agree, alike _, alike _,
    gateRuns gate _ _ _ _ loads loads' same.p99 same.p99,
    (comparisonRuns text _ _ _ _ loads loads').1 rfl agree.toAgreeInText,
    alikeRuns json _ _ (alike _) (alike _) loads⟩

end LatencyGate
