import Mathlib
import LatencyGate.Run
import LatencyGate.Proofs.Text.Utf8

namespace LatencyGate

theorem putAll_unlimited (written : Bytes) (pieces : List String) :
    (⟨written, none⟩ : Sink).putAll pieces =
      (true, ⟨written ++ Utf8.ofString (String.join pieces), none⟩) := by
  induction pieces generalizing written with
  | nil =>
      simp [Sink.putAll, Utf8.ofString, Utf8.encode]
  | cons piece rest ih =>
      simp only [Sink.putAll, Sink.put]
      rw [ih, String.join_cons, Utf8.ofString_append, List.append_assoc]

section
variable {α : Type} {files : Files} {first second : String} {a b : Report}
  {derive : Report → Report → α} {event : α → Event} {pieces : α → List String} {filter : Filter}
  {exitCode : α → UInt32} {e : Failure}

theorem complete_of_first_error (failed : Report.load files first = .error e) :
    (execute files first second .unlimited derive event pieces).complete filter exitCode =
      ⟨2, [], [errorLine e.message]⟩ := by
  simp [execute, loadBoth, failed, Execution.complete, Sink.unlimited]

theorem complete_of_second_error (loaded : Report.load files first = .ok a)
    (failed : Report.load files second = .error e) :
    ∃ log, (execute files first second .unlimited derive event pieces).complete filter exitCode =
      ⟨2, [], log ++ [errorLine e.message]⟩ ∧ (filter = .standard → log = []) := by
  refine ⟨([Event.loaded first a].filter filter.shows).map Event.line, ?_, ?_⟩
  · simp [execute, loadBoth, loaded, failed, Execution.complete, Sink.unlimited]
  · rintro rfl
    rfl

theorem complete_of_loaded (loaded : Report.load files first = .ok a)
    (loaded' : Report.load files second = .ok b) :
    ∃ log, (execute files first second .unlimited derive event pieces).complete filter exitCode =
      ⟨exitCode (derive a b), Utf8.ofString (String.join (pieces (derive a b))), log⟩ := by
  refine ⟨([Event.loaded first a, .loaded second b, event (derive a b)].filter filter.shows).map
    Event.line, ?_⟩
  have written := putAll_unlimited [] (pieces (derive a b))
  rw [List.nil_append] at written
  simp [execute, loadBoth, loaded, loaded', Execution.complete, Sink.unlimited, written]

end

/-- Why a tool does not get to its result: its command line is refused for another reason than
missing arguments, or the first of its two reports cannot be loaded, or only the second. -/
inductive FirstFailure {α : Type} (files : Files) (asked : Except ArgumentError (Request α))
    (first second : α → String) : String → Prop where
  | arguments {e : ArgumentError} : asked = .error e → e ≠ .missing →
      FirstFailure files asked first second e.message
  | first {settings : α} {e : Failure} : asked = .ok (.run settings) →
      Report.load files (first settings) = .error e →
      FirstFailure files asked first second e.message
  | second {settings : α} {a : Report} {e : Failure} : asked = .ok (.run settings) →
      Report.load files (first settings) = .ok a → Report.load files (second settings) = .error e →
      FirstFailure files asked first second e.message

section
variable {α β : Type} {tool : Tool} {args : List String} {files : Files}
  {asked : Except ArgumentError (Request α)} {first second : α → String}
  {derive : α → Report → Report → β} {event : β → Event} {pieces : α → β → List String}
  {filter : Filter} {exitCode : β → UInt32} {message : String}

theorem complete_of_firstFailure (failure : FirstFailure files asked first second message) :
    ∃ log, tool.complete args asked (fun settings =>
        (execute files (first settings) (second settings) .unlimited (derive settings) event
          (pieces settings)).complete filter exitCode) = ⟨2, [], log ++ [errorLine message]⟩ ∧
      (filter = .standard → log = []) := by
  cases failure with
  | arguments refused other =>
      refine ⟨[], ?_, fun _ => rfl⟩
      simp only [Tool.complete, refused]
      rfl
  | first asked failed =>
      rw [asked]
      exact ⟨[], complete_of_first_error failed, fun _ => rfl⟩
  | second asked loaded failed =>
      rw [asked]
      exact complete_of_second_error loaded failed

theorem request_alternatives (files : Files) (asked : Except ArgumentError (Request α))
    (first second : α → String) :
    asked = .ok .help ∨ asked = .error .missing ∨
      (∃ message, FirstFailure files asked first second message) ∨
      ∃ settings a b, asked = .ok (.run settings) ∧ Report.load files (first settings) = .ok a ∧
        Report.load files (second settings) = .ok b := by
  match asked with
  | .ok .help => exact .inl rfl
  | .error e =>
      by_cases missing : e = .missing
      · exact .inr (.inl (congrArg Except.error missing))
      · exact .inr (.inr (.inl ⟨_, .arguments rfl missing⟩))
  | .ok (.run settings) =>
      refine .inr (.inr ?_)
      cases loaded : Report.load files (first settings) with
      | error e => exact .inl ⟨_, .first rfl loaded⟩
      | ok a =>
          cases loaded' : Report.load files (second settings) with
          | error e => exact .inl ⟨_, .second rfl loaded loaded'⟩
          | ok b => exact .inr ⟨settings, a, b, rfl, loaded, loaded'⟩

end

end LatencyGate
