import Mathlib
import LatencyGate.Proofs.Arguments.Reading

namespace LatencyGate

namespace Arguments

def IsNumber (token : String) : Prop := (Binary64.ofNumeral? token).isSome

instance (token : String) : Decidable (IsNumber token) := inferInstanceAs (Decidable (_ = true))

def placedTokens (tokens : List String) : List String := (flagTokens tokens).filter (· ≠ "--json")

/-- A token before `--` starts with a dash, is no flag of the tools, and is no number in the one
place that is for a number. -/
def HasStrayDash (place : Option Nat) (tokens : List String) : Prop :=
  ∃ i token, (placedTokens tokens)[i]? = some token ∧ token.toList.head? = some '-' ∧
    ¬AsksForHelp token ∧ ¬(some i = place ∧ IsNumber token)

def DashesAreNumbers (tokens : List String) : Prop :=
  ∀ token ∈ placedTokens tokens, token.toList.head? = some '-' → IsNumber token

variable {token : String} {tokens : List String}

theorem not_isNumber_of_asksForHelp (help : AsksForHelp token) : ¬IsNumber token := by
  rcases help with rfl | rfl <;> decide +kernel

theorem not_decides_iff :
    ¬Decides token ↔ (token ≠ "--json" → token.toList.head? = some '-' → IsNumber token) := by
  constructor
  · intro other json dash
    by_contra noNumber
    exact other (.inr ⟨dash, json, by simpa [IsNumber] using noNumber⟩)
  · rintro numbers (help | ⟨dash, json, noNumber⟩)
    · have dash : token.toList.head? = some '-' := by rcases help with rfl | rfl <;> decide
      have json : token ≠ "--json" := by rcases help with rfl | rfl <;> decide
      exact not_isNumber_of_asksForHelp help (numbers json dash)
    · have number := numbers json dash
      rw [IsNumber, noNumber] at number
      nomatch number

theorem decisive?_eq_none_iff : decisive? tokens = none ↔ DashesAreNumbers tokens := by
  simp only [decisive?, List.find?_eq_none, decide_eq_true_eq, not_decides_iff, DashesAreNumbers,
    placedTokens, List.mem_filter, ne_eq, and_imp]

theorem isNumber_iff : IsNumber token ↔ ∃ x, Binary64.ofNumeral? token = some x :=
  Option.isSome_iff_exists

end Arguments

open Arguments

variable {args : List String}

theorem GateSettings.accepted_iff :
    (∃ settings, ofArguments args = .ok (.run settings)) ↔
      DashesAreNumbers args.tail ∧
        ∃ token, (positionalTokens args.tail)[2]? = some token ∧ IsNumber token := by
  constructor
  · rintro ⟨settings, asked⟩
    obtain ⟨token, rest, positionals, number⟩ := positionalTokens_of_run asked
    refine ⟨?_, token, by rw [positionals]; rfl, isNumber_iff.2 ⟨_, number⟩⟩
    rw [← decisive?_eq_none_iff]
    cases decided : decisive? args.tail with
    | none => rfl
    | some decisive =>
        rw [ofArguments_of_decisive decided, decision] at asked
        split at asked <;> cases asked
  · rintro ⟨numbers, token, third, number⟩
    obtain ⟨threshold, number⟩ := isNumber_iff.1 number
    rw [ofArguments_of_undecided (decisive?_eq_none_iff.2 numbers)]
    rcases positionals : positionalTokens args.tail with _ | ⟨_, _ | ⟨_, _ | ⟨word, _⟩⟩⟩ <;>
      rw [positionals] at third
    case cons.cons.cons =>
      obtain rfl : word = token := Option.some.inj third
      simp only [number]
      exact ⟨_, rfl⟩
    all_goals simp at third

theorem ComparisonSettings.accepted_iff :
    (∃ settings, ofArguments args = .ok (.run settings)) ↔
      DashesAreNumbers args.tail ∧ 2 ≤ (positionalTokens args.tail).length := by
  cases decided : decisive? args.tail with
  | some decisive =>
      have dashes : ¬DashesAreNumbers args.tail := by
        rw [← decisive?_eq_none_iff, decided]
        nofun
      rw [ofArguments_of_decisive decided, decision]
      refine iff_of_false ?_ fun accepted => dashes accepted.1
      rintro ⟨settings, asked⟩
      split at asked <;> cases asked
  | none =>
      rw [ofArguments_of_undecided decided, and_iff_right (decisive?_eq_none_iff.1 decided)]
      rcases positionalTokens args.tail with _ | ⟨_, _ | _⟩ <;> simp

def GateSettings.RefusesDashes (args : List String) : Prop :=
  HasStrayDash (some 2) args.tail → ∀ settings, ofArguments args ≠ .ok (.run settings)

def ComparisonSettings.RefusesDashes (args : List String) : Prop :=
  HasStrayDash none args.tail → ∀ settings, ofArguments args ≠ .ok (.run settings)

/-- A command line with a stray dash is refused unless all dashes stand in front of numbers and the
positionals suffice: for the gate the third one is a number, for the comparison there are two. -/
theorem refusesDashes_iff (args : List String) :
    (GateSettings.RefusesDashes args ↔
      ¬(HasStrayDash (some 2) args.tail ∧ DashesAreNumbers args.tail ∧
        ∃ token, (positionalTokens args.tail)[2]? = some token ∧ IsNumber token)) ∧
    (ComparisonSettings.RefusesDashes args ↔
      ¬(HasStrayDash none args.tail ∧ DashesAreNumbers args.tail ∧
        2 ≤ (positionalTokens args.tail).length)) := by
  rw [← GateSettings.accepted_iff, ← ComparisonSettings.accepted_iff, not_and, not_and, not_exists,
    not_exists]
  exact ⟨Iff.rfl, Iff.rfl⟩

theorem not_refusesDashes_negative_path :
    GateSettings.ofArguments ["gate", "-1", "b.json", "10"] =
        .ok (.run ⟨"-1", "b.json", .ofNat 10, false⟩) ∧
      ¬GateSettings.RefusesDashes ["gate", "-1", "b.json", "10"] ∧
      ComparisonSettings.ofArguments ["compare", "-1", "b.json"] =
        .ok (.run ⟨"-1", "b.json", false⟩) ∧
      ¬ComparisonSettings.RefusesDashes ["compare", "-1", "b.json"] := by
  have gate : GateSettings.ofArguments ["gate", "-1", "b.json", "10"] =
      .ok (.run ⟨"-1", "b.json", .ofNat 10, false⟩) := by decide +kernel
  have comparison : ComparisonSettings.ofArguments ["compare", "-1", "b.json"] =
      .ok (.run ⟨"-1", "b.json", false⟩) := by decide +kernel
  refine ⟨gate, fun refuses => ?_, comparison, fun refuses => ?_⟩
  · apply refuses ⟨0, "-1", by decide +kernel, by decide, by decide, by simp⟩
    exact gate
  · apply refuses ⟨0, "-1", by decide +kernel, by decide, by decide, by simp⟩
    exact comparison

end LatencyGate
