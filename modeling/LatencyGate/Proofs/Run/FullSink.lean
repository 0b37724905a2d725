import Mathlib
import LatencyGate.Proofs.Run.ExitStatus

namespace LatencyGate

theorem put_limited (written piece : Bytes) (n : Nat) :
    (⟨written, some n⟩ : Sink).put piece =
      (decide (piece.length ≤ n), ⟨written ++ piece.take n, some (n - piece.length)⟩) :=
  rfl

theorem putAll_limited (written : Bytes) (n : Nat) (pieces : List String) :
    (⟨written, some n⟩ : Sink).putAll pieces =
      (decide ((Utf8.ofString (String.join pieces)).length ≤ n),
        ⟨written ++ (Utf8.ofString (String.join pieces)).take n,
          some (n - (Utf8.ofString (String.join pieces)).length)⟩) := by
  induction pieces generalizing written n with
  | nil => simp [Sink.putAll, Utf8.ofString, Utf8.encode]
  | cons piece rest ih =>
      rw [String.join_cons, Utf8.ofString_append, List.length_append, List.take_append, Sink.putAll,
        put_limited]
      by_cases fits : (Utf8.ofString piece).length ≤ n
      · simp only [fits, decide_true, ih]
        rw [List.take_of_length_le fits, List.append_assoc, Nat.sub_sub]
        congr 1
        exact decide_eq_decide.2 (by omega)
      · -- Nothing is left for the pieces behind the one that does not fit.
        have full : n - (Utf8.ofString piece).length = 0 := by omega
        simp only [fits, decide_false]
        rw [full, List.take_zero, List.append_nil]
        congr 2
        · exact (decide_eq_false (by omega)).symm
        · congr 1
          omega

theorem putAll_limited_congr {pieces pieces' : List String}
    (same : String.join pieces = String.join pieces') (n : Nat) :
    (Sink.limited n).putAll pieces = (Sink.limited n).putAll pieces' := by
  rw [Sink.limited, putAll_limited, putAll_limited, same]

section
variable {α : Type} {files : Files} {first second : String} {a b : Report}
  {derive : Report → Report → α} {event : α → Event} {pieces : α → List String} {e : Failure}

theorem execute_of_first_error (failed : Report.load files first = .error e) (sink : Sink) :
    execute files first second sink derive event pieces = ⟨[], .error e, sink⟩ := by
  simp [execute, loadBoth, failed]

theorem execute_of_second_error (loaded : Report.load files first = .ok a)
    (failed : Report.load files second = .error e) (sink : Sink) :
    execute files first second sink derive event pieces = ⟨[.loaded first a], .error e, sink⟩ := by
  simp [execute, loadBoth, loaded, failed]

theorem execute_unlimited (loaded : Report.load files first = .ok a)
    (loaded' : Report.load files second = .ok b) :
    execute files first second .unlimited derive event pieces =
      ⟨[.loaded first a, .loaded second b, event (derive a b)], .ok (derive a b),
        ⟨Utf8.ofString (String.join (pieces (derive a b))), none⟩⟩ := by
  simp [execute, loadBoth, loaded, loaded', Sink.unlimited, putAll_unlimited]

theorem execute_limited (loaded : Report.load files first = .ok a)
    (loaded' : Report.load files second = .ok b) (n : Nat) :
    let output := Utf8.ofString (String.join (pieces (derive a b)))
    execute files first second (.limited n) derive event pieces =
      ⟨[.loaded first a, .loaded second b, event (derive a b)],
        if output.length ≤ n then .ok (derive a b) else .error .unwritable,
        ⟨output.take n, some (n - output.length)⟩⟩ := by
  intro output
  simp only [execute, loadBoth, loaded, loaded', Sink.limited, putAll_limited]
  by_cases fits : output.length ≤ n
  · simp [output, fits]
  · simp [output, fits]

end

/-- A command on a sink with room for `n` bytes. If a report cannot be loaded, the command fails
with the first that cannot, and nothing is written. Otherwise the sink keeps a beginning of the
output, and the command fails if and only if that is not all of it. -/
structure CutsOff {α : Type} (files : Files) (first second : String) (n : Nat)
    (run : Sink → Execution α) (output : α → String) : Prop where
  first_error : ∀ e, Report.load files first = .error e →
    (run (.limited n)).result = .error e ∧ (run (.limited n)).sink.written = []
  second_error : ∀ a e, Report.load files first = .ok a → Report.load files second = .error e →
    (run (.limited n)).result = .error e ∧ (run (.limited n)).sink.written = []
  loaded : ∀ a b, Report.load files first = .ok a → Report.load files second = .ok b →
    ∃ result, (run .unlimited).result = .ok result ∧
      let whole := (run .unlimited).sink.written
      whole = Utf8.ofString (output result) ∧
        (run (.limited n)).sink.written = whole.take (min n whole.length) ∧
        ((run (.limited n)).result = .error .unwritable ↔ n < whole.length) ∧
        (whole.length ≤ n → (run (.limited n)).result = .ok result)

theorem execute_cutsOff {α : Type} (files : Files) (first second : String) (n : Nat)
    (derive : Report → Report → α) (event : α → Event) {pieces : α → List String}
    {output : α → String} (joined : ∀ result, String.join (pieces result) = output result) :
    CutsOff files first second n
      (fun sink => execute files first second sink derive event pieces) output where
  first_error e failed := by
    rw [execute_of_first_error failed]
    exact ⟨rfl, rfl⟩
  second_error a e loaded failed := by
    rw [execute_of_second_error loaded failed]
    exact ⟨rfl, rfl⟩
  loaded a b loaded loaded' := by
    simp only [execute_unlimited loaded loaded', execute_limited loaded loaded', joined]
    refine ⟨derive a b, rfl, rfl, ?_, ?_, fun fits => if_pos fits⟩
    · rw [← List.take_eq_take_min]
    · split
      · rename_i fits
        simpa using fits
      · rename_i exceeds
        simpa using exceeds

theorem commands_cut_off (files : Files) (n : Nat) :
    (∀ settings : GateSettings, CutsOff files settings.baseline settings.current n
      (runGate files settings) fun o => rendering settings.json o.json o.lines) ∧
    (∀ settings : ComparisonSettings, CutsOff files settings.reference settings.target n
      (runComparison files settings) fun c => rendering settings.json c.json c.lines) ∧
    ∀ pieces pieces' : List String, String.join pieces = String.join pieces' →
      (Sink.limited n).putAll pieces = (Sink.limited n).putAll pieces' := by
  refine ⟨fun settings => ?_, fun settings => ?_, fun pieces pieces' same => ?_⟩
  · exact execute_cutsOff _ _ _ n _ _ fun o => join_pieces settings.json o.json o.lines
  · exact execute_cutsOff _ _ _ n _ _ fun c => join_pieces settings.json c.json c.lines
  · exact putAll_limited_congr same n

end LatencyGate
