import LatencyGate.Arguments
import LatencyGate.Diagnostics
import LatencyGate.Files

namespace LatencyGate

/-- What was written so far, and how many bytes there is still room for; without a number there is
always room. -/
structure Sink where
  written : Bytes
  room : Option Nat
  deriving DecidableEq

namespace Sink

def unlimited : Sink := ⟨[], none⟩

def limited (capacity : Nat) : Sink := ⟨[], some capacity⟩

def put (sink : Sink) (piece : Bytes) : Bool × Sink :=
  match sink.room with
  | none => (true, ⟨sink.written ++ piece, none⟩)
  | some n =>
    (decide (piece.length ≤ n), ⟨sink.written ++ piece.take n, some (n - piece.length)⟩)

def putAll (sink : Sink) : List String → Bool × Sink
  | [] => (true, sink)
  | piece :: rest =>
    match sink.put (Utf8.ofString piece) with
    | (false, sink) => (false, sink)
    | (true, sink) => sink.putAll rest

end Sink

structure Execution (α : Type) where
  events : List Event
  result : Except Failure α
  sink : Sink

def loadBoth (files : Files) (first second : String) :
    List Event × Except Failure (Report × Report) :=
  match Report.load files first with
  | .error e => ([], .error e)
  | .ok a =>
    match Report.load files second with
    | .error e => ([.loaded first a], .error e)
    | .ok b => ([.loaded first a, .loaded second b], .ok (a, b))

def pieces (json : Bool) (value : Json) (lines : List String) : List String :=
  if json then [value.render, "\n"] else lines.map (· ++ "\n")

def rendering (json : Bool) (value : Json) (lines : List String) : String :=
  if json then value.render ++ "\n" else String.join (lines.map (· ++ "\n"))

theorem join_pieces (json : Bool) (value : Json) (lines : List String) :
    String.join (pieces json value lines) = rendering json value lines := by
  cases json with
  | false => rfl
  | true => simp [pieces, rendering]

def execute {α : Type} (files : Files) (first second : String) (sink : Sink)
    (derive : Report → Report → α) (event : α → Event) (pieces : α → List String) : Execution α :=
  match loadBoth files first second with
  | (events, .error e) => ⟨events, .error e, sink⟩
  | (events, .ok (a, b)) =>
    let derived := derive a b
    match sink.putAll (pieces derived) with
    | (false, sink) => ⟨events ++ [event derived], .error .unwritable, sink⟩
    | (true, sink) => ⟨events ++ [event derived], .ok derived, sink⟩

def Outcome.event (o : Outcome) : Event :=
  match o.measurement? with
  | none => .noBaseline
  | some m => .measured m

def runGate (files : Files) (settings : GateSettings) (sink : Sink) : Execution Outcome :=
  execute files settings.baseline settings.current sink (Outcome.ofReports settings.threshold)
    Outcome.event fun o => pieces settings.json o.json o.lines

def runComparison (files : Files) (settings : ComparisonSettings) (sink : Sink) :
    Execution Comparison :=
  execute files settings.reference settings.target sink Comparison.ofReports
    Event.compared fun c => pieces settings.json c.json c.lines

/-! ## Tools -/

structure Completion where
  exitCode : UInt32
  stdout : Bytes
  stderr : List String
  deriving DecidableEq

def errorLine (message : String) : String := "error: " ++ message

def Execution.complete {α : Type} (run : Execution α) (filter : Filter) (exitCode : α → UInt32) :
    Completion :=
  let log := (run.events.filter filter.shows).map Event.line
  match run.result with
  | .ok a => ⟨exitCode a, run.sink.written, log⟩
  | .error e => ⟨2, run.sink.written, log ++ [errorLine e.message]⟩

def Tool.complete {α : Type} (tool : Tool) (args : List String)
    (asked : Except ArgumentError (Request α)) (run : α → Completion) : Completion :=
  match asked with
  | .ok (.run settings) => run settings
  | .ok .help => ⟨0, Utf8.ofString (tool.help (tool.programName args)), []⟩
  | .error .missing => ⟨1, Utf8.ofString (tool.usage (tool.programName args) ++ "\n"), []⟩
  | .error e => ⟨2, [], [errorLine e.message]⟩

/-- Runs a tool with a command line, whose first word is the name of the program, and a setting for
the diagnostics. The gate fails with status `1`; a comparison that was written is never a
failure. -/
def Tool.run (tool : Tool) (files : Files) (setting : Option String) (args : List String) :
    Completion :=
  let filter := Filter.ofSetting setting
  match tool with
  | .gate => tool.complete args (GateSettings.ofArguments args) fun settings =>
      (runGate files settings .unlimited).complete filter Outcome.exitCode
  | .comparison => tool.complete args (ComparisonSettings.ofArguments args) fun settings =>
      (runComparison files settings .unlimited).complete filter fun _ => 0

end LatencyGate
