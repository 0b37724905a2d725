import Mathlib
import LatencyGate.Proofs.Run.FullSink

namespace LatencyGate

namespace Comparison

variable {files : Files} {setting : Option String} {args : List String}
  {settings : ComparisonSettings} {message : String}

def Loads (files : Files) (args : List String) (settings : ComparisonSettings)
    (reference target : Report) : Prop :=
  ComparisonSettings.ofArguments args = .ok (.run settings) ∧
    Report.load files settings.reference = .ok reference ∧
    Report.load files settings.target = .ok target

abbrev Fails (files : Files) (args : List String) (message : String) : Prop :=
  FirstFailure files (ComparisonSettings.ofArguments args) (·.reference) (·.target) message

theorem exitCode_of_help (asked : ComparisonSettings.ofArguments args = .ok .help) :
    (Tool.comparison.run files setting args).exitCode = 0 := by
  simp only [Tool.run, Tool.complete, asked]

theorem exitCode_of_missing (asked : ComparisonSettings.ofArguments args = .error .missing) :
    (Tool.comparison.run files setting args).exitCode = 1 := by
  simp only [Tool.run, Tool.complete, asked]

theorem run_of_fails (setting : Option String) (failure : Fails files args message) :
    ∃ log, Tool.comparison.run files setting args = ⟨2, [], log ++ [errorLine message]⟩ ∧
      (setting = none → log = []) := by
  obtain ⟨log, ends, silent⟩ := complete_of_firstFailure failure
  exact ⟨log, ends, fun unset => silent (unset ▸ rfl)⟩

theorem run_of_loads {reference target : Report} (setting : Option String)
    (loads : Loads files args settings reference target) :
    let c := ofReports reference target
    ∃ log, Tool.comparison.run files setting args =
      ⟨0, Utf8.ofString (rendering settings.json c.json c.lines), log⟩ := by
  obtain ⟨asked, loaded, loaded'⟩ := loads
  simp only [Tool.run, Tool.complete, asked, runComparison]
  obtain ⟨log, ends⟩ := complete_of_loaded loaded loaded'
  rw [ends, join_pieces]
  exact ⟨log, rfl⟩

theorem exitCode_of_fails (failure : Fails files args message) :
    (Tool.comparison.run files setting args).exitCode = 2 := by
  obtain ⟨log, ends, -⟩ := run_of_fails setting failure
  rw [ends]

theorem exitCode_of_loads {reference target : Report}
    (loads : Loads files args settings reference target) :
    (Tool.comparison.run files setting args).exitCode = 0 := by
  obtain ⟨log, ends⟩ := run_of_loads setting loads
  rw [ends]

theorem succeeds_or_missing_or_fails (files : Files) (args : List String) :
    (ComparisonSettings.ofArguments args = .ok .help ∨
        ∃ settings reference target, Loads files args settings reference target) ∨
      ComparisonSettings.ofArguments args = .error .missing ∨
      ∃ message, Fails files args message := by
  obtain help | missing | fails | loads :=
    request_alternatives files (ComparisonSettings.ofArguments args) (·.reference) (·.target)
  · exact .inl (.inl help)
  · exact .inr (.inl missing)
  · exact .inr (.inr fails)
  · exact .inl (.inr loads)

theorem status_iff_of_cover {code : UInt32} {done short failed : Prop} (zero : done → code = 0)
    (one : short → code = 1) (two : failed → code = 2) (cover : done ∨ short ∨ failed) :
    (code = 0 ↔ done) ∧ (code = 1 ↔ short) ∧ (code = 2 ↔ failed) := by
  rcases cover with h | h | h
  · obtain rfl := zero h
    exact ⟨iff_of_true rfl h, iff_of_false nofun (nomatch one ·), iff_of_false nofun (nomatch two ·)⟩
  · obtain rfl := one h
    exact ⟨iff_of_false nofun (nomatch zero ·), iff_of_true rfl h, iff_of_false nofun (nomatch two ·)⟩
  · obtain rfl := two h
    exact ⟨iff_of_false nofun (nomatch zero ·), iff_of_false nofun (nomatch one ·), iff_of_true rfl h⟩

/-- Every run of a comparison ends with a status that only tells how far it came: `0` for help and for
a comparison that was written, `1` for missing arguments, and `2` for everything else that goes wrong,
of which the first is reported. What the reports say has no part in it. -/
theorem comparison_ends_by_progress (files : Files) (setting : Option String) (args : List String) :
    let seen := Tool.comparison.run files setting args
    (seen.exitCode = 0 ↔ ComparisonSettings.ofArguments args = .ok .help ∨
      ∃ settings reference target, Loads files args settings reference target) ∧
    (seen.exitCode = 1 ↔ ComparisonSettings.ofArguments args = .error .missing) ∧
    (seen.exitCode = 2 ↔ ∃ message, Fails files args message) ∧
    (seen.exitCode = 0 ∨ seen.exitCode = 1 ∨ seen.exitCode = 2) ∧
    (∀ message, Fails files args message → seen.stdout = [] ∧
      ∃ log, seen.stderr = log ++ ["error: " ++ message] ∧ (setting = none → log = [])) ∧
    ∀ settings reference target, Loads files args settings reference target →
      let c := ofReports reference target
      seen.stdout = Utf8.ofString (rendering settings.json c.json c.lines) := by
  intro seen
  have zero : (ComparisonSettings.ofArguments args = .ok .help ∨
      ∃ settings reference target, Loads files args settings reference target) →
      seen.exitCode = 0 := by
    rintro (help | ⟨settings, reference, target, loads⟩)
    · exact exitCode_of_help help
    · exact exitCode_of_loads loads
  have two : (∃ message, Fails files args message) → seen.exitCode = 2 := by
    rintro ⟨message, failure⟩
    exact exitCode_of_fails failure
  -- The three cases cover everything and have different statuses.
  have cover := succeeds_or_missing_or_fails files args
  obtain ⟨isZero, isOne, isTwo⟩ := status_iff_of_cover zero exitCode_of_missing two cover
  refine ⟨isZero, isOne, isTwo, ?_, ?_, ?_⟩
  · exact cover.imp zero (Or.imp exitCode_of_missing two)
  · intro message failure
    obtain ⟨log, ends, silent⟩ := run_of_fails setting failure
    exact ⟨congrArg Completion.stdout ends, log, congrArg Completion.stderr ends, silent⟩
  · intro settings reference target loads
    obtain ⟨log, ends⟩ := run_of_loads setting loads
    exact congrArg Completion.stdout ends

end Comparison

end LatencyGate
