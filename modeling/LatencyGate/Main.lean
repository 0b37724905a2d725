import LatencyGate.Run

namespace LatencyGate

def ReadFault.ofNumber? : Nat → Option ReadFault
  | 2 => some .notFound
  | 13 => some (.other "Permission denied (os error 13)")
  | 20 => some .notDirectory
  | 21 => some .isDirectory
  | 36 => some .nameTooLong
  | _ => none

def errorNumber? : IO.Error → Option Nat
  | .noFileOrDirectory _ n _ | .permissionDenied _ n _ | .inappropriateType _ n _
  | .invalidArgument _ n _ => some (if n < 0x80000000 then n.toNat else (-n).toNat)
  | _ => none

def ReadFault.ofError (e : IO.Error) : ReadFault :=
  ((errorNumber? e).bind ofNumber?).getD (.other (toString e))

def readFile (path : String) : IO (Except ReadFault Bytes) := do
  try
    return .ok (← IO.FS.readBinFile path).toList
  catch e => return .error (.ofError e)

def Tool.ofProgram? (program : String) : Option Tool :=
  let base := String.ofList (program.toList.reverse.takeWhile (· ≠ '/')).reverse
  if base = Tool.gate.name then some .gate
  else if base = Tool.comparison.name then some .comparison
  else none

def Tool.paths (tool : Tool) (args : List String) : List String :=
  match tool with
  | .gate => match GateSettings.ofArguments args with
    | .ok (.run settings) => [settings.baseline, settings.current]
    | _ => []
  | .comparison => match ComparisonSettings.ofArguments args with
    | .ok (.run settings) => [settings.reference, settings.target]
    | _ => []

end LatencyGate

open LatencyGate in
/-- The first argument names the tool, as a path whose last part is its name, and `RUST_LOG` sets the
diagnostics. -/
def main (args : List String) : IO UInt32 := do
  match args.head?.bind Tool.ofProgram? with
  | none =>
    IO.eprintln "error: the first argument must name a tool, ci_regression or compare_platforms"
    return 2
  | some tool =>
    let contents ← (tool.paths args).mapM fun path => return (path, ← readFile path)
    let files : Files := fun path => (contents.lookup path).getD (.error .notFound)
    let completion := tool.run files (← IO.getEnv "RUST_LOG") args
    let stdout ← IO.getStdout
    stdout.write completion.stdout.toByteArray
    stdout.flush
    for line in completion.stderr do
      IO.eprintln line
    return completion.exitCode
