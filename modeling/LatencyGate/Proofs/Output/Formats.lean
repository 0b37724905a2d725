import Mathlib
import LatencyGate.Proofs.Comparison.Figures
import LatencyGate.Proofs.Gate.Monotonicity
import LatencyGate.Proofs.Output.Lossless

/-!
# Text and JSON

The format in which a command writes makes no difference to its result, and the text says nothing
that the JSON does not: two runs with the same JSON have the same text. JSON does not tell apart
thresholds that are not finite. But among these only negative infinity is ever exceeded, and the
text of a pass does not mention the threshold.
-/

namespace LatencyGate

open Binary64 Json

theorem Metric.isFinite_ratio {reference target : UInt64} {m : Metric}
    (figures : ofFigures? reference target = some m) : m.ratio.isFinite := by
  by_cases zero : reference = 0
  · simp [ofFigures?, zero] at figures
  obtain rfl := Option.some.inj ((ofFigures?_eq_some zero target).symm.trans figures)
  exact isFinite_of_toRat? (toRat?_ratio zero target)

theorem Comparison.isFinite_ofReports (a b : Report) : (ofReports a b).IsFinite := by
  intro figure member m found
  simp only [ofReports, List.mem_cons, List.not_mem_nil, or_false] at member
  rcases member with rfl | rfl | rfl <;> exact Metric.isFinite_ratio found

theorem Comparison.eq_of_json_eq {c c' : Comparison} (finite : c.IsFinite) (finite' : c'.IsFinite)
    (same : c.json = c'.json) : c = c' := by
  have decoded := ofJson?_json finite
  rw [same, ofJson?_json finite'] at decoded
  exact (Option.some.inj decoded).symm

inductive Outcome.Decided : Outcome → Prop
  | noBaseline : Decided .noBaseline
  | pass {m : Measurement} : changePercent m.baseline m.current = some m.change →
      m.threshold.lt m.change = false → Decided (.pass m)
  | fail {m : Measurement} : changePercent m.baseline m.current = some m.change →
      m.threshold.lt m.change = true → Decided (.fail m)

theorem decided_decideGate (threshold : Binary64) (baseline current : UInt64) :
    (decideGate threshold baseline current).Decided := by
  unfold decideGate
  split
  · exact .noBaseline
  · rename_i change computed
    cases exceeds : threshold.lt change with
    | true => exact .fail computed exceeds
    | false => exact .pass computed exceeds

theorem isFinite_of_changePercent {baseline current : UInt64} {change : Binary64}
    (computed : changePercent baseline current = some change) : change.isFinite := by
  have nonzero : baseline ≠ 0 := by
    rintro rfl
    simp [changePercent] at computed
  obtain ⟨change', computed', value⟩ := changePercent_eq_some nonzero current
  obtain rfl := Option.some.inj (computed.symm.trans computed')
  exact isFinite_of_toRat? value

theorem isFinite_or_eq_of_lt {x y : Binary64} (finite : y.isFinite) (less : x.lt y = true) :
    x.isFinite ∨ x = .infinity true := by
  obtain ⟨a, b, ha, hb, ab⟩ := lt_eq_true.1 less
  cases x with
  | nan => nomatch ha
  | finite negative rank => exact .inl rfl
  | infinity negative =>
      cases negative with
      | true => exact .inr rfl
      | false =>
          cases y with
          | nan | infinity => nomatch finite
          | finite negative rank =>
              obtain rfl := Option.some.inj ha
              obtain rfl := Option.some.inj hb
              have below := rank.isLt
              simp only [Bool.false_eq_true, ↓reduceIte] at ab
              split at ab <;> omega

theorem ofBinary64_inj {x y : Binary64} (hx : x.isFinite ∨ x = .infinity true)
    (hy : y.isFinite ∨ y = .infinity true) (same : ofBinary64 x = ofBinary64 y) : x = y := by
  rcases hx with finite | rfl <;> rcases hy with finite' | rfl
  · rw [ofBinary64_of_isFinite finite, ofBinary64_of_isFinite finite'] at same
    simpa using same
  · rw [ofBinary64_of_isFinite finite] at same
    simp [ofBinary64, isFinite] at same
  · rw [ofBinary64_of_isFinite finite'] at same
    simp [ofBinary64, isFinite] at same
  · rfl

section
variable {o o' : Outcome}

theorem Outcome.status_eq_of_json_eq (same : o.json = o'.json) : o.status = o'.status := by
  have member := congrArg (member? "status") same
  simpa [Outcome.member?_json, lookup_member] using member

theorem Outcome.figures_eq_of_json_eq {m m' : Measurement} (measured : o.measurement? = some m)
    (measured' : o'.measurement? = some m') (same : o.json = o'.json) :
    m.baseline = m'.baseline ∧ m.current = m'.current ∧
      ofBinary64 m.threshold = ofBinary64 m'.threshold := by
  have member (key : String) := congrArg (member? key) same
  simp only [Outcome.member?_json, measured, measured', Option.map_some, Option.getD_some,
    Measurement.members] at member
  refine ⟨?_, ?_, ?_⟩
  · simpa [lookup_member] using member "baseline_p99_ns"
  · simpa [lookup_member] using member "current_p99_ns"
  · simpa [lookup_member] using member "threshold_percent"

end

/-- Decisions with the same JSON are the same, except that passes may differ in the threshold. -/
theorem Outcome.eq_of_json_eq {o o' : Outcome} (decided : o.Decided) (decided' : o'.Decided)
    (same : o.json = o'.json) : o = o' ∨ ∃ m threshold, o = .pass m ∧
      o' = .pass { m with threshold } := by
  have status := status_eq_of_json_eq same
  cases decided with
  | noBaseline =>
      cases decided' with
      | noBaseline => exact .inl rfl
      | pass | fail => simp [Outcome.status] at status
  | @pass m computed =>
      cases decided' with
      | noBaseline | fail => simp [Outcome.status] at status
      | @pass m' computed' =>
          obtain ⟨baseline, current, -⟩ := figures_eq_of_json_eq rfl rfl same
          rw [baseline, current, computed'] at computed
          refine .inr ⟨m, m'.threshold, rfl, ?_⟩
          rw [baseline, current, ← Option.some.inj computed]
  | @fail m computed exceeds =>
      cases decided' with
      | noBaseline | pass => simp [Outcome.status] at status
      | @fail m' computed' exceeds' =>
          obtain ⟨baseline, current, threshold⟩ := figures_eq_of_json_eq rfl rfl same
          -- A threshold that was exceeded is finite or minus infinity, which its JSON tells apart.
          have exceeded := isFinite_or_eq_of_lt (isFinite_of_changePercent computed) exceeds
          have exceeded' := isFinite_or_eq_of_lt (isFinite_of_changePercent computed') exceeds'
          have threshold_eq := ofBinary64_inj exceeded exceeded' threshold
          rw [baseline, current, computed'] at computed
          have change : m.change = m'.change := (Option.some.inj computed).symm
          refine .inl (congrArg Outcome.fail ?_)
          calc m = ⟨m.baseline, m.current, m.change, m.threshold⟩ := rfl
            _ = m' := by rw [baseline, current, change, threshold_eq]

theorem Outcome.lines_eq_of_json_eq {o o' : Outcome} (decided : o.Decided) (decided' : o'.Decided)
    (same : o.json = o'.json) : o.lines = o'.lines ∧ o.exitCode = o'.exitCode := by
  rcases eq_of_json_eq decided decided' same with rfl | ⟨m, threshold, rfl, rfl⟩
  · exact ⟨rfl, rfl⟩
  · exact ⟨rfl, rfl⟩

theorem jsonLine_injective {v v' : Json} {lines lines' : List String}
    (finite : Everywhere Number.IsFinite Ascending v)
    (finite' : Everywhere Number.IsFinite Ascending v')
    (same : jsonLine v lines = jsonLine v' lines') : v = v' := by
  rw [jsonLine_eq, jsonLine_eq] at same
  exact chars_injective finite finite' (List.append_cancel_right same)

theorem jsonLine_ne_nil (v : Json) (lines : List String) : jsonLine v lines ≠ [] := by
  simp [jsonLine_eq]

theorem exitCode_complete {α : Type} (run : Execution α) (filter : Filter)
    (exitCode : α → UInt32) : (run.complete filter exitCode).exitCode = match run.result with
      | .ok a => exitCode a
      | .error _ => 2 := by
  unfold Execution.complete
  cases run.result <;> rfl

/-- A command in both formats. Once its reports are loaded it returns what it derives from them,
with the exit status for that, and otherwise it fails with the same error. -/
structure IgnoresFormat {α : Type} (files : Files) (first second : String)
    (derive : Report → Report → α) (exitCode : α → UInt32) (run : Bool → Execution α) : Prop where
  returned : ∀ a b, Report.load files first = .ok a → Report.load files second = .ok b → ∀ json,
    (run json).result = .ok (derive a b) ∧
      ∀ filter, ((run json).complete filter exitCode).exitCode = exitCode (derive a b)
  result_eq : (run true).result = (run false).result
  exitCode_eq : ∀ filter filter', ((run true).complete filter exitCode).exitCode =
    ((run false).complete filter' exitCode).exitCode

/-- Two runs of a command that write the same text and end with the same exit status in whichever
format. -/
structure Indistinguishable {α : Type} (exitCode : α → UInt32) (run run' : Bool → Execution α) :
    Prop where
  text_eq : (run false).sink.written = (run' false).sink.written
  exitCode_eq : ∀ json json' filter filter', ((run json).complete filter exitCode).exitCode =
    ((run' json').complete filter' exitCode).exitCode

section
variable {α : Type} {files : Files} {first second : String} {derive : Report → Report → α}
  {event : α → Event} {exitCode : α → UInt32}

theorem execute_alternatives (files : Files) (first second : String)
    (derive : Report → Report → α) (event : α → Event) :
    (∃ events e, ∀ pieces, execute files first second .unlimited derive event pieces =
      ⟨events, .error e, .unlimited⟩) ∨
    ∃ events a b, ∀ pieces, execute files first second .unlimited derive event pieces =
      ⟨events, .ok (derive a b), ⟨Utf8.ofString (String.join (pieces (derive a b))), none⟩⟩ := by
  cases loaded : Report.load files first with
  | error e => exact .inl ⟨_, e, fun pieces => execute_of_first_error loaded _⟩
  | ok a =>
      cases loaded' : Report.load files second with
      | error e => exact .inl ⟨_, e, fun pieces => execute_of_second_error loaded loaded' _⟩
      | ok b => exact .inr ⟨_, a, b, fun pieces => execute_unlimited loaded loaded'⟩

theorem result_execute_unlimited (pieces pieces' : α → List String) :
    (execute files first second .unlimited derive event pieces).result =
      (execute files first second .unlimited derive event pieces').result := by
  rcases execute_alternatives files first second derive event with
    ⟨events, e, run⟩ | ⟨events, a, b, run⟩
  · rw [run, run]
  · rw [run, run]

theorem ignoresFormat_execute (value : α → Json) (lines : α → List String) :
    IgnoresFormat files first second derive exitCode fun json =>
      execute files first second .unlimited derive event fun r =>
        pieces json (value r) (lines r) where
  returned a b loaded loaded' json := by
    simp only [exitCode_complete, execute_unlimited loaded loaded', implies_true, and_self]
  result_eq := result_execute_unlimited _ _
  exitCode_eq filter filter' := by
    rw [exitCode_complete, exitCode_complete, result_execute_unlimited]

/-- If results with the same JSON have the same lines and the same exit status, then the JSON that a
run writes tells what it writes as text. -/
theorem indistinguishable_execute (derive derive' : Report → Report → α) (value : α → Json)
    (lines : α → List String) {files' : Files} {first' second' : String}
    (finite : ∀ r, Everywhere Number.IsFinite Ascending (value r))
    (told : ∀ a b a' b', value (derive a b) = value (derive' a' b') →
      lines (derive a b) = lines (derive' a' b') ∧
        exitCode (derive a b) = exitCode (derive' a' b'))
    (same : (execute files first second .unlimited derive event fun r =>
        pieces true (value r) (lines r)).sink.written =
      (execute files' first' second' .unlimited derive' event fun r =>
        pieces true (value r) (lines r)).sink.written) :
    Indistinguishable exitCode
      (fun json => execute files first second .unlimited derive event fun r =>
        pieces json (value r) (lines r))
      (fun json => execute files' first' second' .unlimited derive' event fun r =>
        pieces json (value r) (lines r)) := by
  rcases execute_alternatives files first second derive event with
    ⟨events, e, run⟩ | ⟨events, a, b, run⟩
  · rcases execute_alternatives files' first' second' derive' event with
      ⟨events', e', run'⟩ | ⟨events', a', b', run'⟩
    · constructor
      · rw [run, run']
      · simp only [exitCode_complete, run, run', implies_true]
    · -- Only a run that fails writes nothing.
      simp only [run, run', ← jsonLine_eq_ofString] at same
      exact absurd same.symm (jsonLine_ne_nil _ _)
  · rcases execute_alternatives files' first' second' derive' event with
      ⟨events', e', run'⟩ | ⟨events', a', b', run'⟩
    · simp only [run, run', ← jsonLine_eq_ofString] at same
      exact absurd same (jsonLine_ne_nil _ _)
    · simp only [run, run', ← jsonLine_eq_ofString] at same
      have value_eq := jsonLine_injective (finite _) (finite _) same
      obtain ⟨lines_eq, exitCode_eq⟩ := told a b a' b' value_eq
      constructor
      · simp only [run, run', pieces, lines_eq, Bool.false_eq_true, ↓reduceIte]
      · simp only [exitCode_complete, run, run', exitCode_eq, implies_true]

end

def GateSettings.inFormat (settings : GateSettings) (files : Files) (json : Bool) :
    Execution Outcome :=
  runGate files { settings with json } .unlimited

def ComparisonSettings.inFormat (settings : ComparisonSettings) (files : Files) (json : Bool) :
    Execution Comparison :=
  runComparison files { settings with json } .unlimited

/-- Neither command comes to another result in another format, and two runs of a command with the
same JSON have the same text and exit status, for all files and thresholds. -/
theorem json_determines_text :
    (∀ files (settings : GateSettings), IgnoresFormat files settings.baseline settings.current
      (Outcome.ofReports settings.threshold) Outcome.exitCode (settings.inFormat files)) ∧
    (∀ files (settings : ComparisonSettings), IgnoresFormat files settings.reference settings.target
      Comparison.ofReports (fun _ => 0) (settings.inFormat files)) ∧
    (∀ files files' (settings settings' : GateSettings),
      (settings.inFormat files true).sink.written = (settings'.inFormat files' true).sink.written →
      Indistinguishable Outcome.exitCode (settings.inFormat files) (settings'.inFormat files')) ∧
    ∀ files files' (settings settings' : ComparisonSettings),
      (settings.inFormat files true).sink.written = (settings'.inFormat files' true).sink.written →
      Indistinguishable (fun _ => 0) (settings.inFormat files) (settings'.inFormat files') := by
  refine ⟨fun files settings => ignoresFormat_execute Outcome.json Outcome.lines,
    fun files settings => ignoresFormat_execute Comparison.json Comparison.lines,
    fun files files' settings settings' same => ?_, fun files files' settings settings' same => ?_⟩
  · refine indistinguishable_execute (Outcome.ofReports settings.threshold)
      (Outcome.ofReports settings'.threshold) Outcome.json Outcome.lines Outcome.everywhere_json
      (fun a b a' b' json_eq => ?_) same
    exact Outcome.lines_eq_of_json_eq (decided_decideGate _ _ _) (decided_decideGate _ _ _) json_eq
  · refine indistinguishable_execute Comparison.ofReports Comparison.ofReports Comparison.json
      Comparison.lines Comparison.everywhere_json (fun a b a' b' json_eq => ?_) same
    rw [Comparison.eq_of_json_eq (Comparison.isFinite_ofReports a b)
      (Comparison.isFinite_ofReports a' b') json_eq]
    exact ⟨rfl, rfl⟩

def grownFiles (front : String) : Files := fun path =>
  let figure := if path = "new" then "1050" else "1000"
  .ok (Utf8.ofString ("\x7b" ++ front ++ "\"latency\":\x7b\"p99_ns\":" ++ figure ++ "\x7d\x7d"))

def grownLine : String :=
  "\x7b\"baseline_p99_ns\":1000,\"change_percent\":5.0,\"command\":\"regression\"," ++
  "\"current_p99_ns\":1050,\"passed\":true,\"status\":\"pass\",\"threshold_percent\":null\x7d\n"

theorem json_determines_text_nan_infinity :
    let settings : GateSettings := ⟨"old", "new", .nan, false⟩
    let settings' : GateSettings := ⟨"old", "new", .infinity false, false⟩
    let files := grownFiles ""
    let files' := grownFiles "\"platform\":\"x\","
    (settings.inFormat files true).sink.written = Utf8.ofString grownLine ∧
      (settings'.inFormat files' true).sink.written = Utf8.ofString grownLine ∧
      Indistinguishable Outcome.exitCode (settings.inFormat files) (settings'.inFormat files') := by
  intro settings settings' files files'
  have line : (settings.inFormat files true).sink.written = Utf8.ofString grownLine := by
    decide +kernel
  have line' : (settings'.inFormat files' true).sink.written = Utf8.ofString grownLine := by
    decide +kernel
  exact ⟨line, line', json_determines_text.2.2.1 files files' settings settings'
    (line.trans line'.symm)⟩

end LatencyGate
