import Mathlib
import LatencyGate.Decimal
import LatencyGate.Proofs.Run.FullSink
import LatencyGate.Proofs.Text.Lines

/-!
# The frame of a comparison

The text of a comparison has a fixed number of lines, of which the labels of the platforms only
fill some that begin with a blank. Nothing in a report can add a line to the frame or take one away
from it, as long as the labels are lines: a label with a newline in it is printed on several lines,
and these say what the label says.
-/

namespace LatencyGate

def SameOutput (reference target : Report) : Prop :=
  reference.hash ≠ "" ∧ target.hash ≠ "" ∧ reference.hash = target.hash

instance (reference target : Report) : Decidable (SameOutput reference target) :=
  inferInstanceAs (Decidable (_ ∧ _ ∧ _))

def isVerdict (line : String) : Bool := "Bit Identity: ".toList.isPrefixOf line.toList

/-- A text has the frame of a comparison: ten lines without figures and fourteen with them, three
rulers in their places, a heading for the figures just if there are any, and one verdict on the
outputs, which is the right one. -/
structure Framed (reference target : Report) (text : String) : Prop where
  ends : text.toList.getLast? = some '\n'
  length : (textLines text).length = if reference.p99 = 0 then 10 else 14
  rulers : (textLines text).count ruler = 3 ∧ (textLines text)[0]? = some ruler ∧
    (textLines text)[4]? = some ruler ∧ (textLines text).getLast? = some ruler
  heading : "Latency (p99):" ∈ textLines text ↔ 0 < reference.p99
  verdict : (textLines text).filter isVerdict =
    [if SameOutput reference target then "Bit Identity: ✓ VERIFIED" else "Bit Identity: ✗ MISMATCH"]

theorem mem_groupByThree {c : Char} {cs : List Char} (mem : c ∈ groupByThree cs) :
    c ∈ cs ∨ c = ',' := by
  induction cs with
  | nil => exact .inl mem
  | cons d cs ih =>
      rw [groupByThree] at mem
      split at mem <;> simp only [List.mem_cons] at mem ⊢ <;> tauto

theorem newline_not_mem_groupedDigits (n : Nat) : '\n' ∉ (groupedDigits n).toList := by
  rw [groupedDigits, String.toList_ofList]
  intro mem
  rcases mem_groupByThree mem with digit | comma
  · exact absurd (isDigit_of_mem_digits digit) (by decide)
  · exact absurd comma (by decide)

theorem mem_fixedDigits {places : Nat} {x : Rat} {c : Char} (mem : c ∈ fixedDigits places x) :
    c.isDigit = true ∨ c = '.' := by
  rw [fixedDigits] at mem
  have padded {k : Nat} {n : Nat} (mem : c ∈ List.replicate k '0' ++ digits n) :
      c.isDigit = true := by
    rcases List.mem_append.1 mem with zero | digit
    · rw [List.eq_of_mem_replicate zero]
      rfl
    · exact isDigit_of_mem_digits digit
  rcases List.mem_append.1 mem with whole | rest
  · exact .inl (padded (List.mem_of_mem_take whole))
  · rcases List.mem_cons.1 rest with point | places
    · exact .inr point
    · exact .inl (padded (List.mem_of_mem_drop places))

theorem newline_not_mem_fixedText (places : Nat) (plus : Bool) (x : Binary64) :
    '\n' ∉ (x.fixedText places plus).toList := by
  have signed {negative : Bool} {text : List Char} (printed : '\n' ∉ text) :
      '\n' ∉ (if negative then ['-'] else if plus then ['+'] else []) ++ text := by
    cases negative <;> cases plus <;> simpa using printed
  cases x with
  | nan => exact (by decide : '\n' ∉ "NaN".toList)
  | infinity negative =>
      rw [Binary64.fixedText, String.toList_ofList]
      exact signed (by decide)
  | finite negative rank =>
      rw [Binary64.fixedText, String.toList_ofList]
      refine signed fun mem => ?_
      rcases mem_fixedDigits mem with digit | point
      · exact absurd digit (by decide)
      · exact absurd point (by decide)

namespace Comparison

theorem newline_not_mem_latencyLines (c : Comparison) (first : '\n' ∉ c.referencePlatform.toList)
    (second : '\n' ∉ c.targetPlatform.toList) : ∀ line ∈ c.latencyLines, '\n' ∉ line.toList := by
  unfold latencyLines
  cases c.latency with
  | none => nofun
  | some m =>
      simp [first, second, newline_not_mem_groupedDigits, newline_not_mem_fixedText]

theorem newline_not_mem_lines_iff (c : Comparison) :
    (∀ line ∈ c.lines, '\n' ∉ line.toList) ↔
      '\n' ∉ c.referencePlatform.toList ∧ '\n' ∉ c.targetPlatform.toList := by
  have rule : '\n' ∉ ruler.toList := by decide
  have verdict : '\n' ∉ c.identityText.toList := by
    unfold identityText
    split <;> decide
  constructor
  · intro single
    have first := single ("  Reference: " ++ c.referencePlatform) (by simp [lines])
    have second := single ("  Target: " ++ c.targetPlatform) (by simp [lines])
    simp only [String.toList_append, List.mem_append, not_or] at first second
    exact ⟨first.2, second.2⟩
  · rintro ⟨first, second⟩
    simpa [lines, or_imp, forall_and, rule, verdict, first, second] using
      newline_not_mem_latencyLines c first second

def isIndented (line : String) : Bool := line.toList.head? == some ' '

theorem isIndented_append {a : String} (nonempty : a ≠ "") (b : String) :
    isIndented (a ++ b) = isIndented a := by
  obtain ⟨first, rest, chars⟩ := List.exists_cons_of_ne_nil (l := a.toList) (by simpa using nonempty)
  rw [isIndented, isIndented, String.toList_append, chars]
  rfl

def frame (figures identical : Bool) : List String :=
  [ruler, ruler, ""] ++ (if figures then ["Latency (p99):"] else []) ++
    ["", "Bit Identity: " ++ (if identical then "✓ VERIFIED" else "✗ MISMATCH"), "", ruler]

theorem filter_lines (c : Comparison) :
    c.lines.filter (!isIndented ·) = frame c.latency.isSome c.identical := by
  unfold lines latencyLines identityText
  cases c.latency with
  | none => simp +decide [isIndented_append, frame]
  | some m => simp +decide [isIndented_append, frame]

theorem count_ruler_lines (c : Comparison) : c.lines.count ruler = 3 := by
  have rule : (!isIndented ruler) = true := by decide
  have frames : ∀ figures identical, (frame figures identical).count ruler = 3 := by decide
  rw [← List.count_filter (p := (!isIndented ·)) rule, filter_lines, frames]

theorem heading_mem_lines_iff (c : Comparison) :
    "Latency (p99):" ∈ c.lines ↔ c.latency.isSome := by
  have plain : (!isIndented "Latency (p99):") = true := by decide
  have frames : ∀ figures identical, "Latency (p99):" ∈ frame figures identical ↔ figures := by
    decide
  rw [← frames c.latency.isSome c.identical, ← filter_lines, List.mem_filter, and_iff_left plain]

theorem filter_isVerdict_lines (c : Comparison) :
    c.lines.filter isVerdict =
      [if c.identical then "Bit Identity: ✓ VERIFIED" else "Bit Identity: ✗ MISMATCH"] := by
  have frames : ∀ figures identical, (frame figures identical).filter isVerdict =
      [if identical then "Bit Identity: ✓ VERIFIED" else "Bit Identity: ✗ MISMATCH"] := by decide
  rw [← frames c.latency.isSome c.identical, ← filter_lines, List.filter_filter]
  refine (List.filter_congr fun line _ => ?_).symm
  rw [Bool.and_eq_left_iff_imp]
  intro verdict
  obtain ⟨rest, chars⟩ := List.isPrefixOf_iff_prefix.1 verdict
  rw [isIndented, ← chars]
  rfl

theorem isSome_latency_iff (reference target : Report) :
    (ofReports reference target).latency.isSome ↔ reference.p99 ≠ 0 := by
  change (Metric.ofFigures? _ _).isSome ↔ _
  unfold Metric.ofFigures?
  split <;> simp_all

theorem identical_iff (reference target : Report) :
    (ofReports reference target).identical = true ↔ SameOutput reference target := by
  change identicalOutputs _ _ = true ↔ _
  unfold identicalOutputs SameOutput
  rw [Bool.and_eq_true, bne_iff_ne, beq_iff_eq]
  constructor
  · rintro ⟨nonempty, same⟩
    exact ⟨nonempty, same ▸ nonempty, same⟩
  · rintro ⟨nonempty, -, same⟩
    exact ⟨nonempty, same⟩

theorem length_lines (reference target : Report) :
    (ofReports reference target).lines.length = if reference.p99 = 0 then 10 else 14 := by
  have figures := isSome_latency_iff reference target
  unfold lines latencyLines
  cases latency : (ofReports reference target).latency with
  | none =>
      rw [latency] at figures
      have zero : reference.p99 = 0 := by simpa using figures
      rw [if_pos zero]
      rfl
  | some m =>
      rw [latency] at figures
      rw [if_neg (figures.1 rfl)]
      rfl

theorem textLines_rendering (c : Comparison) :
    textLines (rendering false c.json c.lines) = c.lines.flatMap linesWithin :=
  textLines_join c.lines

/-- The text of a comparison has its frame if and only if the labels have no newlines in them. -/
theorem framed_iff (reference target : Report) :
    let c := ofReports reference target
    Framed reference target (rendering false c.json c.lines) ↔
      '\n' ∉ reference.platformName.toList ∧ '\n' ∉ target.platformName.toList := by
  intro c
  refine Iff.trans ?_ (newline_not_mem_lines_iff c)
  constructor
  · intro framed
    have length := framed.length
    rw [textLines_rendering, ← length_lines reference target] at length
    exact (length_flatMap_linesWithin_eq_iff _).1 length
  · intro single
    have read : textLines (rendering false c.json c.lines) = c.lines := by
      rw [textLines_rendering, flatMap_linesWithin_of_single single]
    constructor
    · exact getLast?_join nofun
    · rw [read, length_lines]
    · rw [read]
      refine ⟨count_ruler_lines _, rfl, rfl, ?_⟩
      rw [lines, List.getLast?_append]
      rfl
    · rw [read, heading_mem_lines_iff, isSome_latency_iff, UInt64.pos_iff_ne_zero]
    · rw [read, filter_isVerdict_lines]
      simp only [c, identical_iff]

theorem not_framed_forged :
    let reference : Report := {
      platform := some "x\nBit Identity: ✓ VERIFIED", outputHash := some "abc" }
    let target : Report := { outputHash := some "xyz" }
    let c := ofReports reference target
    let text := rendering false c.json c.lines
    ¬SameOutput reference target ∧
      (textLines text).filter isVerdict =
        ["Bit Identity: ✓ VERIFIED", "Bit Identity: ✗ MISMATCH"] ∧
      ¬Framed reference target text := by
  intro reference target c text
  have verdicts : (textLines text).filter isVerdict =
      ["Bit Identity: ✓ VERIFIED", "Bit Identity: ✗ MISMATCH"] := by
    rw [textLines_rendering]
    decide +kernel
  refine ⟨by decide +kernel, verdicts, fun framed => ?_⟩
  have single := congrArg List.length framed.verdict
  rw [verdicts] at single
  exact absurd single (by decide)

end Comparison

end LatencyGate
