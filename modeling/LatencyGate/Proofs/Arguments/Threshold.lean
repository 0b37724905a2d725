import Mathlib
import LatencyGate.Arguments
import LatencyGate.Proofs.Decimal.Percentages

namespace LatencyGate

namespace Arguments

variable {token : String} {rest : List String}

theorem looksLikeFlag_of_head (head : token.toList.head? ≠ some '-') :
    looksLikeFlag token = false := by
  rw [looksLikeFlag, beq_false_of_ne head, Bool.false_and]

theorem looksLikeFlag_of_ofNumeral? {x : Binary64} (number : Binary64.ofNumeral? token = some x) :
    looksLikeFlag token = false := by
  rw [looksLikeFlag, number, Option.isNone_some, Bool.and_false]

theorem scan_positional (plain : looksLikeFlag token = false) :
    scan (token :: rest) =
      scan.onRun (fun a => { a with positionals := token :: a.positionals }) (scan rest) := by
  have other {flag : String} (flagged : looksLikeFlag flag = true) : token ≠ flag := by
    rintro rfl
    rw [plain] at flagged
    nomatch flagged
  have dashes : token ≠ "--" := other (by decide +kernel)
  have help : token ≠ "--help" := other (by decide +kernel)
  have help' : token ≠ "-h" := other (by decide +kernel)
  have json : token ≠ "--json" := other (by decide +kernel)
  rw [scan, if_neg dashes, if_neg (not_or.2 ⟨help, help'⟩), if_neg json, plain, if_neg nofun]

theorem scan_positionals {tokens : List String}
    (plain : ∀ token ∈ tokens, looksLikeFlag token = false) :
    scan tokens = .ok (.run ⟨tokens, false⟩) := by
  induction tokens with
  | nil => rfl
  | cons token tokens ih =>
      rw [scan_positional (plain token List.mem_cons_self),
        ih fun token member => plain token (List.mem_cons_of_mem _ member)]
      rfl

def jsonFlag (json : Bool) : List String := if json then ["--json"] else []

theorem scan_jsonFlag (json : Bool) {a : Arguments} (scanned : scan rest = .ok (.run a))
    (text : a.json = false) : scan (jsonFlag json ++ rest) = .ok (.run { a with json := json }) := by
  obtain ⟨positionals, asked⟩ := a
  cases text
  cases json with
  | false => exact scanned
  | true =>
      have step : scan ("--json" :: rest) =
          scan.onRun (fun a => { a with json := true }) (scan rest) := rfl
      rw [jsonFlag, if_pos rfl, List.cons_append, List.nil_append, step, scanned]
      rfl

end Arguments

namespace GateSettings

open Arguments

theorem ofArguments_of_scan {program baseline current : String} {tokens : List String} {json : Bool}
    {threshold : Binary64}
    (scanned : scan tokens = .ok (.run ⟨[baseline, current, threshold.percentText], json⟩)) :
    ofArguments (program :: tokens) = .ok (.run ⟨baseline, current, threshold, json⟩) := by
  rw [ofArguments, List.tail_cons, scanned]
  simp only [Binary64.ofNumeral?_percentText]

/-- The text of any threshold is taken back as the same number: behind `--` whatever the paths are,
and without it unless a path starts with a dash. -/
theorem ofArguments_percentText (program baseline current : String) (bits : UInt64) (json : Bool) :
    let threshold := Binary64.ofBits bits
    let settings : GateSettings := ⟨baseline, current, threshold, json⟩
    let words := [baseline, current, threshold.percentText]
    ofArguments (program :: (jsonFlag json ++ "--" :: words)) = .ok (.run settings) ∧
      (baseline.toList.head? ≠ some '-' → current.toList.head? ≠ some '-' →
        ofArguments (program :: (jsonFlag json ++ words)) = .ok (.run settings)) ∧
      (threshold = .nan ∨ threshold.toBits = bits) := by
  intro threshold settings words
  refine ⟨?_, ?_, ?_⟩
  · have scanned : scan ("--" :: words) = .ok (.run ⟨words, false⟩) := rfl
    exact ofArguments_of_scan (scan_jsonFlag json scanned rfl)
  · intro first second
    have plain : ∀ token ∈ words, looksLikeFlag token = false := by
      intro token member
      simp only [words, List.mem_cons, List.not_mem_nil, or_false] at member
      rcases member with rfl | rfl | rfl
      · exact looksLikeFlag_of_head first
      · exact looksLikeFlag_of_head second
      · exact looksLikeFlag_of_ofNumeral? (Binary64.ofNumeral?_percentText threshold)
    exact ofArguments_of_scan (scan_jsonFlag json (scan_positionals plain) rfl)
  · exact or_iff_not_imp_left.2 Binary64.toBits_ofBits

theorem ofArguments_percentText_negative_infinity :
    ofArguments ["gate", "--json", "a.json", "b.json", "-inf"] =
        .ok (.run ⟨"a.json", "b.json", .infinity true, true⟩) ∧
      (Binary64.infinity true).toBits = 0xFFF0000000000000 := by
  have pattern : Binary64.ofBits 0xFFF0000000000000 = .infinity true := by decide +kernel
  obtain ⟨-, bare, bits⟩ :=
    ofArguments_percentText "gate" "a.json" "b.json" 0xFFF0000000000000 true
  rw [pattern] at bare bits
  exact ⟨bare (by decide +kernel) (by decide +kernel), bits.resolve_left nofun⟩

end GateSettings

end LatencyGate
