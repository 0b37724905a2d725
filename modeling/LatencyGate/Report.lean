import LatencyGate.Json.Reader.Record

namespace LatencyGate

open Json Json.Reader

structure Latency where
  p99 : Option UInt64 := none
  /-- The bound on the worst case; it counts only if it is a natural number. -/
  wcetBound : Option Json := none

structure Report where
  platform : Option String := none
  outputHash : Option String := none
  latency : Option Latency := none
  throughput : Option Json := none

namespace Report

def platformName (r : Report) : String := r.platform.getD "unknown"

def hash (r : Report) : String := r.outputHash.getD ""

def p99 (r : Report) : UInt64 := (r.latency.bind Latency.p99).getD 0

def wcetBound (r : Report) : UInt64 :=
  ((r.latency.bind Latency.wcetBound).bind Json.natural?).getD 0

def inferenceRate (r : Report) : UInt64 :=
  ((r.throughput.bind (Json.member? "inferences_per_sec")).bind Json.natural?).getD 0

end Report

def sameOptional {α : Type} (same : α → α → Bool) : Option α → Option α → Bool
  | none, none => true
  | some a, some b => same a b
  | _, _ => false

def Latency.same (a b : Latency) : Bool :=
  a.p99 == b.p99 && sameOptional Json.same a.wcetBound b.wcetBound

def Report.same (a b : Report) : Bool :=
  a.platform == b.platform && a.outputHash == b.outputHash &&
    sameOptional Latency.same a.latency b.latency &&
    sameOptional Json.same a.throughput b.throughput

/-- The number of brackets that may be open at a time in the values a report keeps, its own
included. -/
def maxOpenBrackets : Nat := 127

def Latency.fields : List (RecordField Latency) := [
  ⟨"p99_ns", fun latency => return { latency with p99 := ← optional unsigned }⟩,
  ⟨"wcet_bound_ns", fun latency =>
    return { latency with wcetBound := ← optional (value (maxOpenBrackets - 2)) }⟩]

def Latency.reader : Reader Latency := record "struct LatencyStats" fields {}

def Report.fields : List (RecordField Report) := [
  ⟨"platform", fun report => return { report with platform := ← optional text }⟩,
  ⟨"output_hash", fun report => return { report with outputHash := ← optional text }⟩,
  ⟨"latency", fun report => return { report with latency := ← optional Latency.reader }⟩,
  ⟨"throughput", fun report =>
    return { report with throughput := ← optional (value (maxOpenBrackets - 1)) }⟩]

def Report.reader : Reader Report := record "struct BenchmarkReport" fields {}

def Report.parse (document : Bytes) : Except ParseError Report := readAll reader document

def Report.parseText (document : String) : Except ParseError Report :=
  parse (Utf8.ofString document)

end LatencyGate
