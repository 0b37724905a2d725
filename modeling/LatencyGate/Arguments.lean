import LatencyGate.Decimal
import LatencyGate.Text

namespace LatencyGate

inductive Tool where
  | gate
  | comparison
  deriving DecidableEq

inductive ArgumentError where
  | missing
  | unknownFlag (token : String)
  | invalidThreshold (token : String)
  deriving DecidableEq

def ArgumentError.message : ArgumentError → String
  | .missing => "missing required arguments"
  | .unknownFlag token => "unknown flag " ++ token
  | .invalidThreshold token =>
    "invalid threshold " ++ quoteText token ++ ": expected a percentage such as 10 or 2.5"

inductive Request (α : Type) where
  | help
  | run (settings : α)
  deriving DecidableEq

structure GateSettings where
  baseline : String
  current : String
  threshold : Binary64
  json : Bool
  deriving DecidableEq

structure ComparisonSettings where
  reference : String
  target : String
  json : Bool
  deriving DecidableEq

structure Arguments where
  positionals : List String
  json : Bool
  deriving DecidableEq

/-- Whether a token looks like a flag: it starts with a dash and is not a number. -/
def looksLikeFlag (token : String) : Bool :=
  token.toList.head? == some '-' && (Binary64.ofNumeral? token).isNone

def Arguments.scan : List String → Except ArgumentError (Request Arguments)
  | [] => .ok (.run ⟨[], false⟩)
  | token :: rest =>
    if token = "--" then .ok (.run ⟨rest, false⟩)
    else if token = "--help" ∨ token = "-h" then .ok .help
    else if token = "--json" then onRun (fun a => { a with json := true }) (scan rest)
    else if looksLikeFlag token then .error (.unknownFlag token)
    else onRun (fun a => { a with positionals := token :: a.positionals }) (scan rest)
where
  onRun (change : Arguments → Arguments) :
      Except ArgumentError (Request Arguments) → Except ArgumentError (Request Arguments)
    | .ok (.run a) => .ok (.run (change a))
    | other => other

def GateSettings.ofArguments (args : List String) :
    Except ArgumentError (Request GateSettings) :=
  match Arguments.scan args.tail with
  | .error e => .error e
  | .ok .help => .ok .help
  | .ok (.run ⟨baseline :: current :: threshold :: _, json⟩) =>
    match Binary64.ofNumeral? threshold with
    | none => .error (.invalidThreshold threshold)
    | some t => .ok (.run ⟨baseline, current, t, json⟩)
  | .ok (.run _) => .error .missing

def ComparisonSettings.ofArguments (args : List String) :
    Except ArgumentError (Request ComparisonSettings) :=
  match Arguments.scan args.tail with
  | .error e => .error e
  | .ok .help => .ok .help
  | .ok (.run ⟨reference :: target :: _, json⟩) => .ok (.run ⟨reference, target, json⟩)
  | .ok (.run _) => .error .missing

namespace Tool

def name : Tool → String
  | .gate => "ci_regression"
  | .comparison => "compare_platforms"

def programName (tool : Tool) (args : List String) : String := args.head?.getD tool.name

def usage (tool : Tool) (program : String) : String :=
  "Usage: " ++ program ++ match tool with
    | .gate => " <baseline.json> <current.json> <threshold%>"
    | .comparison => " <reference.json> <target.json>"

def purpose : Tool → String
  | .gate => "Fails (exit 1) when p99 latency grew by more than threshold%.\n" ++
      "A baseline without p99 latency always passes.\n"
  | .comparison => "Prints p99 latency ratio and bit identity of two benchmark runs.\n"

def product : Tool → String
  | .gate => "verdict"
  | .comparison => "comparison"

def help (tool : Tool) (program : String) : String :=
  tool.usage program ++ "\n\n" ++ tool.purpose ++ "\nOptions:\n" ++
    "  --json    print the " ++ tool.product ++ " as a JSON object\n" ++
    "  --        treat every later argument as a path\n" ++
    "  -h, --help\n"

end Tool

end LatencyGate
