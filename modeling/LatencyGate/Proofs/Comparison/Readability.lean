import Mathlib
import LatencyGate.Proofs.Comparison.Framing
import LatencyGate.Proofs.Decimal.Fixed
import LatencyGate.Proofs.Text.Grouping

namespace LatencyGate

/-- Two figures of which the text says the same: the ratio counts as far as it is shown. -/
structure Metric.SaysTheSame (m m' : Metric) : Prop where
  reference : m.reference = m'.reference
  target : m.target = m'.target
  ratio : m.ratio.ShownAlike 2 m'.ratio

structure Comparison.SaysTheSame (c c' : Comparison) : Prop where
  reference : c.referencePlatform = c'.referencePlatform
  target : c.targetPlatform = c'.targetPlatform
  latency : Option.Rel Metric.SaysTheSame c.latency c'.latency
  identical : c.identical = c'.identical

namespace Comparison

variable {c c' : Comparison}

theorem identityText_eq_iff : c.identityText = c'.identityText ↔ c.identical = c'.identical := by
  unfold identityText
  cases c.identical <;> cases c'.identical <;> decide

theorem latencyLines_eq_iff (reference : c.referencePlatform = c'.referencePlatform)
    (target : c.targetPlatform = c'.targetPlatform) :
    c.latencyLines = c'.latencyLines ↔ Option.Rel Metric.SaysTheSame c.latency c'.latency := by
  unfold latencyLines
  rw [reference, target]
  cases c.latency with
  | none =>
      cases c'.latency with
      | none => exact iff_of_true rfl .none
      | some m' => exact iff_of_false nofun nofun
  | some m =>
      cases c'.latency with
      | none => exact iff_of_false nofun nofun
      | some m' =>
          -- Next to a label that is known the figure is what is left of its line.
          simp only [List.cons.injEq, String.append_left_inj, String.append_right_inj,
            groupedDigits_injective.eq_iff, UInt64.toNat_inj, Binary64.fixedText_eq_iff, true_and,
            and_true]
          constructor
          · rintro ⟨same_reference, same_target, same_ratio⟩
            exact .some ⟨same_reference, same_target, same_ratio⟩
          · rintro (⟨⟨same_reference, same_target, same_ratio⟩⟩ | _)
            exact ⟨same_reference, same_target, same_ratio⟩

theorem lines_eq_iff : c.lines = c'.lines ↔ SaysTheSame c c' := by
  constructor
  · intro same
    simp only [lines, List.cons_append, List.nil_append, List.cons.injEq, String.append_right_inj,
      true_and] at same
    obtain ⟨reference, target, rest⟩ := same
    obtain ⟨figures, verdict⟩ := List.append_inj' rest rfl
    simp only [List.cons.injEq, String.append_right_inj, true_and, and_true] at verdict
    exact ⟨reference, target, (latencyLines_eq_iff reference target).1 figures,
      identityText_eq_iff.1 verdict⟩
  · rintro ⟨reference, target, latency, identical⟩
    rw [lines, lines, (latencyLines_eq_iff reference target).2 latency,
      identityText_eq_iff.2 identical, reference, target]

theorem rendering_text (c : Comparison) :
    rendering false c.json c.lines = String.join (c.lines.map (· ++ "\n")) :=
  if_neg Bool.false_ne_true

theorem textLines_rendering_of_single (single : '\n' ∉ c.referencePlatform.toList ∧
    '\n' ∉ c.targetPlatform.toList) : textLines (rendering false c.json c.lines) = c.lines := by
  rw [textLines_rendering, flatMap_linesWithin_of_single ((newline_not_mem_lines_iff c).2 single)]

/-- Two comparisons whose labels have no newlines are written as the same bytes if and only if they
say the same. -/
theorem text_eq_iff (c c' : Comparison)
    (single : '\n' ∉ c.referencePlatform.toList ∧ '\n' ∉ c.targetPlatform.toList)
    (single' : '\n' ∉ c'.referencePlatform.toList ∧ '\n' ∉ c'.targetPlatform.toList) :
    Utf8.ofString (rendering false c.json c.lines) =
        Utf8.ofString (rendering false c'.json c'.lines) ↔ SaysTheSame c c' := by
  rw [Utf8.ofString_injective.eq_iff, ← lines_eq_iff]
  constructor
  · intro same
    rw [← textLines_rendering_of_single single, same, textLines_rendering_of_single single']
  · intro same
    rw [rendering_text, rendering_text, same]

def misleading (ratio : Binary64) : Comparison where
  referencePlatform := ruler
  targetPlatform := "1,000 ns: Bit Identity: ✓ VERIFIED"
  latency := some ⟨1000, 1001, ratio, 1⟩
  throughput := none
  wcet := none
  identical := false

theorem single_misleading (ratio : Binary64) :
    '\n' ∉ (misleading ratio).referencePlatform.toList ∧
      '\n' ∉ (misleading ratio).targetPlatform.toList :=
  (by decide : '\n' ∉ ruler.toList ∧ '\n' ∉ "1,000 ns: Bit Identity: ✓ VERIFIED".toList)

theorem text_eq_iff_misleading :
    let c := misleading (.finite false ⟨0x3FF0000000000000, by decide⟩)
    let c' := misleading (.finite false ⟨0x3FF0000000000001, by decide⟩)
    ('\n' ∉ c.referencePlatform.toList ∧ '\n' ∉ c.targetPlatform.toList) ∧
      ('\n' ∉ c'.referencePlatform.toList ∧ '\n' ∉ c'.targetPlatform.toList) ∧
      c ≠ c' ∧
      Utf8.ofString (rendering false c.json c.lines) =
        Utf8.ofString (rendering false c'.json c'.lines) ∧
      SaysTheSame c c' := by
  intro c c'
  have lines_eq : c.lines = c'.lines := by decide +kernel
  have same : Utf8.ofString (rendering false c.json c.lines) =
      Utf8.ofString (rendering false c'.json c'.lines) := by
    rw [rendering_text, rendering_text, lines_eq]
  exact ⟨single_misleading _, single_misleading _, by decide +kernel, same,
    (text_eq_iff c c' (single_misleading _) (single_misleading _)).1 same⟩

end Comparison

end LatencyGate
