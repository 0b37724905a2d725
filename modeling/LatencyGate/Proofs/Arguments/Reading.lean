import Mathlib
import LatencyGate.Proofs.Arguments.Threshold

namespace LatencyGate

namespace Arguments

def flagTokens (tokens : List String) : List String := tokens.takeWhile (· ≠ "--")

def verbatimTokens (tokens : List String) : List String := (tokens.dropWhile (· ≠ "--")).tail

def positionalTokens (tokens : List String) : List String :=
  (flagTokens tokens).filter (· ≠ "--json") ++ verbatimTokens tokens

def AsksForHelp (token : String) : Prop := token = "--help" ∨ token = "-h"

def IsBadFlag (token : String) : Prop :=
  token.toList.head? = some '-' ∧ token ≠ "--json" ∧ Binary64.ofNumeral? token = none

/-- A token that decides what a command line asks for, whatever comes behind it. -/
def Decides (token : String) : Prop := AsksForHelp token ∨ IsBadFlag token

instance (token : String) : Decidable (AsksForHelp token) :=
  inferInstanceAs (Decidable (_ ∨ _))

instance (token : String) : Decidable (IsBadFlag token) :=
  inferInstanceAs (Decidable (_ ∧ _ ∧ _))

instance (token : String) : Decidable (Decides token) :=
  inferInstanceAs (Decidable (_ ∨ _))

def decisive? (tokens : List String) : Option String :=
  (flagTokens tokens).find? fun token => Decides token

def decision (α : Type) (token : String) : Except ArgumentError (Request α) :=
  if AsksForHelp token then .ok .help else .error (.unknownFlag token)

def reading (tokens : List String) : Except ArgumentError (Request Arguments) :=
  match decisive? tokens with
  | some token => decision Arguments token
  | none => .ok (.run ⟨positionalTokens tokens, "--json" ∈ flagTokens tokens⟩)

variable {token : String} {tokens : List String}

theorem flagTokens_cons (flag : token ≠ "--") :
    flagTokens (token :: tokens) = token :: flagTokens tokens := by
  simp [flagTokens, flag]

theorem verbatimTokens_cons (flag : token ≠ "--") :
    verbatimTokens (token :: tokens) = verbatimTokens tokens := by
  simp [verbatimTokens, flag]

theorem reading_cons_of_decides (flag : token ≠ "--") (decides : Decides token) :
    reading (token :: tokens) = decision Arguments token := by
  have first : decisive? (token :: tokens) = some token := by
    rw [decisive?, flagTokens_cons flag]
    exact List.find?_cons_of_pos (decide_eq_true decides)
  rw [reading, first]

theorem reading_cons_of_not_decides (flag : token ≠ "--") (other : ¬Decides token) :
    reading (token :: tokens) =
      scan.onRun (fun a => if token = "--json" then { a with json := true }
        else { a with positionals := token :: a.positionals }) (reading tokens) := by
  have later : decisive? (token :: tokens) = decisive? tokens := by
    rw [decisive?, flagTokens_cons flag]
    exact List.find?_cons_of_neg (by simpa using other)
  rw [reading, reading, later]
  cases decisive? tokens with
  | some decisive =>
      dsimp only [decision]
      split <;> rfl
  | none =>
      rw [positionalTokens, positionalTokens, flagTokens_cons flag, verbatimTokens_cons flag]
      by_cases json : token = "--json"
      · simp [scan.onRun, json]
      · simp [scan.onRun, json, Ne.symm json]

theorem scan_of_decides (flag : token ≠ "--") (decides : Decides token) :
    scan (token :: tokens) = decision Arguments token := by
  rw [scan, if_neg flag, decision]
  rcases decides with help | ⟨head, json, noNumber⟩
  · rw [if_pos help]
    exact if_pos help
  · have looks : looksLikeFlag token = true := by
      rw [looksLikeFlag, head, noNumber]
      rfl
    rw [if_neg json, if_pos looks]
    rfl

theorem looksLikeFlag_of_not_decides (json : token ≠ "--json") (other : ¬Decides token) :
    looksLikeFlag token = false := by
  have good : ¬IsBadFlag token := fun bad => other (.inr bad)
  simpa [looksLikeFlag, IsBadFlag, json, Option.ne_none_iff_isSome] using good

theorem scan_eq_reading (tokens : List String) : scan tokens = reading tokens := by
  induction tokens with
  | nil => rfl
  | cons token tokens ih =>
      by_cases separator : token = "--"
      · rw [separator]
        rfl
      by_cases decides : Decides token
      · rw [scan_of_decides separator decides, reading_cons_of_decides separator decides]
      rw [reading_cons_of_not_decides separator decides, ← ih]
      by_cases json : token = "--json"
      · rw [json]
        rfl
      · rw [scan_positional (looksLikeFlag_of_not_decides json decides)]
        simp only [json, if_false]

theorem scan_of_decisive (decided : decisive? tokens = some token) :
    scan tokens = decision Arguments token := by
  rw [scan_eq_reading, reading, decided]

theorem scan_of_undecided (undecided : decisive? tokens = none) :
    scan tokens = .ok (.run ⟨positionalTokens tokens, "--json" ∈ flagTokens tokens⟩) := by
  rw [scan_eq_reading, reading, undecided]

end Arguments

open Arguments

variable {token : String} {args : List String}

theorem GateSettings.ofArguments_of_decisive (decided : decisive? args.tail = some token) :
    ofArguments args = decision GateSettings token := by
  rw [ofArguments, scan_of_decisive decided, decision, decision]
  by_cases help : AsksForHelp token
  · simp only [if_pos help]
  · simp only [if_neg help]

theorem ComparisonSettings.ofArguments_of_decisive (decided : decisive? args.tail = some token) :
    ofArguments args = decision ComparisonSettings token := by
  rw [ofArguments, scan_of_decisive decided, decision, decision]
  by_cases help : AsksForHelp token
  · simp only [if_pos help]
  · simp only [if_neg help]

theorem GateSettings.ofArguments_of_undecided (undecided : decisive? args.tail = none) :
    ofArguments args =
      match positionalTokens args.tail with
      | baseline :: current :: token :: _ =>
        match Binary64.ofNumeral? token with
        | none => .error (.invalidThreshold token)
        | some threshold =>
          .ok (.run ⟨baseline, current, threshold, "--json" ∈ flagTokens args.tail⟩)
      | _ => .error .missing := by
  rw [ofArguments, scan_of_undecided undecided]
  rcases positionalTokens args.tail with _ | ⟨_, _ | ⟨_, _ | _⟩⟩ <;> rfl

theorem GateSettings.positionalTokens_of_run {settings : GateSettings}
    (asked : ofArguments args = .ok (.run settings)) :
    ∃ token rest, positionalTokens args.tail = settings.baseline :: settings.current :: token :: rest ∧
      Binary64.ofNumeral? token = some settings.threshold := by
  cases decided : decisive? args.tail with
  | some decisive =>
      rw [ofArguments_of_decisive decided, decision] at asked
      split at asked <;> cases asked
  | none =>
      rw [ofArguments_of_undecided decided] at asked
      split at asked
      · rename_i baseline current token rest positionals
        split at asked
        · cases asked
        · rename_i threshold number
          cases asked
          exact ⟨token, rest, positionals, number⟩
      · cases asked

theorem ComparisonSettings.ofArguments_of_undecided (undecided : decisive? args.tail = none) :
    ofArguments args =
      match positionalTokens args.tail with
      | reference :: target :: _ =>
        .ok (.run ⟨reference, target, "--json" ∈ flagTokens args.tail⟩)
      | _ => .error .missing := by
  rw [ofArguments, scan_of_undecided undecided]
  rcases positionalTokens args.tail with _ | ⟨_, _ | _⟩ <;> rfl

/-- Of the tokens before `--`, the first that asks for help or is a bad flag decides what a command
line asks for. If there is none, each tool takes its settings from the beginning of the
positionals. -/
theorem ofArguments_eq (args : List String) :
    GateSettings.ofArguments args =
      (match decisive? args.tail with
      | some token => if AsksForHelp token then .ok .help else .error (.unknownFlag token)
      | none =>
        match positionalTokens args.tail with
        | baseline :: current :: token :: _ =>
          match Binary64.ofNumeral? token with
          | none => .error (.invalidThreshold token)
          | some threshold =>
            .ok (.run ⟨baseline, current, threshold, "--json" ∈ flagTokens args.tail⟩)
        | _ => .error .missing) ∧
    ComparisonSettings.ofArguments args =
      (match decisive? args.tail with
      | some token => if AsksForHelp token then .ok .help else .error (.unknownFlag token)
      | none =>
        match positionalTokens args.tail with
        | reference :: target :: _ =>
          .ok (.run ⟨reference, target, "--json" ∈ flagTokens args.tail⟩)
        | _ => .error .missing) := by
  cases decided : decisive? args.tail with
  | some token =>
      exact ⟨GateSettings.ofArguments_of_decisive decided,
        ComparisonSettings.ofArguments_of_decisive decided⟩
  | none =>
      exact ⟨GateSettings.ofArguments_of_undecided decided,
        ComparisonSettings.ofArguments_of_undecided decided⟩

example : ComparisonSettings.ofArguments ["compare", "--json", "--", "-h", "--", "--json"] =
    .ok (.run ⟨"-h", "--", true⟩) := by
  decide +kernel

end LatencyGate
