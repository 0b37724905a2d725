import Mathlib

namespace LatencyGate

def textLines (text : String) : List String :=
  (text.toList.splitOn '\n').dropLast.map String.ofList

def linesWithin (line : String) : List String := (line.toList.splitOn '\n').map String.ofList

theorem linesWithin_of_not_mem {line : String} (single : '\n' ∉ line.toList) :
    linesWithin line = [line] := by
  rw [linesWithin, List.splitOn_eq_singleton single, List.map_singleton, String.ofList_toList]

theorem length_splitOn_newline (cs : List Char) :
    (cs.splitOn '\n').length = cs.count '\n' + 1 := by
  induction cs with
  | nil => rfl
  | cons c cs ih =>
      rw [List.splitOn_cons_eq_if_modifyHead, List.count_cons]
      split
      · rw [List.length_cons, ih]
      · rw [List.length_modifyHead, ih, Nat.add_zero]

theorem length_linesWithin (line : String) :
    (linesWithin line).length = line.toList.count '\n' + 1 := by
  rw [linesWithin, List.length_map, length_splitOn_newline]

theorem textLines_join (lines : List String) :
    textLines (String.join (lines.map (· ++ "\n"))) = lines.flatMap linesWithin := by
  induction lines with
  | nil => rfl
  | cons line lines ih =>
      rw [List.map_cons, String.join_cons, List.flatMap_cons, ← ih, textLines, textLines, linesWithin,
        String.toList_append, String.toList_append, List.append_assoc]
      have newline : "\n".toList = ['\n'] := rfl
      rw [newline, List.singleton_append, List.splitOn_append_cons_self,
        List.dropLast_append_of_ne_nil (List.splitOn_ne_nil _ _), List.map_append]

theorem flatMap_linesWithin_of_single {lines : List String}
    (single : ∀ line ∈ lines, '\n' ∉ line.toList) : lines.flatMap linesWithin = lines := by
  rw [List.flatMap_congr fun line mem => linesWithin_of_not_mem (single line mem)]
  exact List.flatMap_singleton' lines

theorem length_flatMap_linesWithin (lines : List String) :
    (lines.flatMap linesWithin).length =
      lines.length + (lines.map (·.toList.count '\n')).sum := by
  induction lines with
  | nil => rfl
  | cons line lines ih =>
      rw [List.flatMap_cons, List.length_append, length_linesWithin, ih, List.map_cons,
        List.sum_cons, List.length_cons]
      omega

theorem length_flatMap_linesWithin_eq_iff (lines : List String) :
    (lines.flatMap linesWithin).length = lines.length ↔ ∀ line ∈ lines, '\n' ∉ line.toList := by
  rw [length_flatMap_linesWithin, Nat.add_eq_left, List.sum_eq_zero_iff, List.forall_mem_map]
  simp only [List.count_eq_zero]

theorem getLast?_join {lines : List String} (nonempty : lines ≠ []) :
    (String.join (lines.map (· ++ "\n"))).toList.getLast? = some '\n' := by
  obtain ⟨init, last, rfl⟩ := (List.eq_nil_or_concat lines).resolve_left nonempty
  simp [String.toList_join]

end LatencyGate
