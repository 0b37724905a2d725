import Mathlib
import LatencyGate.Proofs.Json.Edits
import LatencyGate.Proofs.Report.Meaning

namespace LatencyGate

open Json Json.Spelling

variable {given : String → Option Spelling} {v w w' : Spelling}

theorem Latency.assemble?_update_wcetBound {latency : Latency}
    (assembled : assemble? given = some latency) :
    assemble? (Function.update given "wcet_bound_ns" (some v)) =
      (optional? (value? (maxOpenBrackets - 2)) (some v)).map ({ latency with wcetBound := · }) := by
  obtain ⟨p99, -⟩ := assemble?_eq_some_iff.1 assembled
  simp only [assemble?, Function.update_self, p99, ne_eq, String.reduceEq, not_false_eq_true,
    Function.update_of_ne, Option.bind_some]

theorem Latency.value?_sets_wcetBound (sets : Sets meaning.names "wcet_bound_ns" v w w')
    {latency : Latency} (read : meaning.value? w = some latency) :
    meaning.value? w' =
      (optional? (value? (maxOpenBrackets - 2)) (some v)).map ({ latency with wcetBound := · }) := by
  obtain ⟨given, assembled, eq⟩ := meaning.value?_sets (by decide) sets read
  exact eq.trans (assemble?_update_wcetBound assembled)

namespace Report

variable {r : Report}

theorem assemble?_update_throughput (assembled : assemble? given = some r) :
    assemble? (Function.update given "throughput" (some v)) =
      (optional? (value? (maxOpenBrackets - 1)) (some v)).map ({ r with throughput := · }) := by
  obtain ⟨platform, hash, latency, -⟩ := assemble?_eq_some_iff.1 assembled
  simp only [assemble?, Function.update_self, platform, hash, latency, ne_eq, String.reduceEq,
    not_false_eq_true, Function.update_of_ne, Option.bind_some]

theorem value?_sets_throughput (sets : Sets meaning.names "throughput" v w w')
    (read : meaning.value? w = some r) :
    meaning.value? w' =
      (optional? (value? (maxOpenBrackets - 1)) (some v)).map ({ r with throughput := · }) := by
  obtain ⟨given, assembled, eq⟩ := meaning.value?_sets (by decide) sets read
  exact eq.trans (assemble?_update_throughput assembled)

theorem assemble?_update_latency (assembled : assemble? given = some r) :
    assemble? (Function.update given "latency" (some v)) =
      (optional? Latency.meaning.value? (some v)).map ({ r with latency := · }) := by
  obtain ⟨platform, hash, -, throughput⟩ := assemble?_eq_some_iff.1 assembled
  simp only [assemble?, Function.update_self, platform, hash, throughput, ne_eq, String.reduceEq,
    not_false_eq_true, Function.update_of_ne, Option.bind_some, Option.map_some]
  exact Option.map_eq_bind.symm

theorem value?_replaces_latency {l l' : Spelling} (block : l ≠ .null) (block' : l' ≠ .null)
    (replaces : Replaces meaning.names "latency" l l' w w') (read : meaning.value? w = some r) :
    ∃ latency, Latency.meaning.value? l = some latency ∧ r.latency = some latency ∧
      meaning.value? w' =
        (Latency.meaning.value? l').map fun latency => { r with latency := some latency } := by
  obtain ⟨given, assembled, present, eq⟩ := meaning.value?_replaces (by decide) replaces read
  have found := (assemble?_eq_some_iff.1 assembled).2.2.1
  rw [present, optional?_some _ block] at found
  obtain ⟨latency, found, kept⟩ := Option.map_eq_some_iff.1 found
  refine ⟨latency, found, kept.symm, eq.trans ((assemble?_update_latency assembled).trans ?_)⟩
  rw [optional?_some _ block', Option.map_map]
  rfl

end Report

end LatencyGate
