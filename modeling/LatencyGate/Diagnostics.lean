import LatencyGate.Comparison
import LatencyGate.Gate
import LatencyGate.Text

namespace LatencyGate

inductive Level where
  | error
  | warn
  | info
  | debug
  | trace
  deriving DecidableEq

def Level.rank : Level → Nat
  | .error => 0
  | .warn => 1
  | .info => 2
  | .debug => 3
  | .trace => 4

def Level.label : Level → String
  | .error => "ERROR"
  | .warn => " WARN"
  | .info => " INFO"
  | .debug => "DEBUG"
  | .trace => "TRACE"

def Level.named? : String → Option Level
  | "error" => some .error
  | "warn" => some .warn
  | "info" => some .info
  | "debug" => some .debug
  | "trace" => some .trace
  | _ => none

inductive Event where
  | loaded (path : String) (report : Report)
  | noBaseline
  | measured (m : Measurement)
  | compared (c : Comparison)

namespace Event

def level : Event → Level
  | .noBaseline => .warn
  | _ => .debug

def target : Event → String
  | .loaded _ _ => "benchcheck::report"
  | .noBaseline | .measured _ => "benchcheck::regression"
  | .compared _ => "benchcheck::compare"

def message : Event → String
  | .loaded _ _ => "loaded benchmark report"
  | .noBaseline => "baseline has no p99 latency; skipping regression gate"
  | .measured _ => "evaluated regression gate"
  | .compared _ => "compared benchmark reports"

def truth (b : Bool) : String := if b then "true" else "false"

def fields : Event → List (String × String)
  | .loaded path report => [
    ("path", path),
    ("platform", quoteText report.platformName),
    ("p99_ns", report.p99.toNat.repr)]
  | .noBaseline => []
  | .measured m => [
    ("baseline_p99_ns", m.baseline.toNat.repr),
    ("current_p99_ns", m.current.toNat.repr),
    ("change_percent", m.change.percentText),
    ("threshold_percent", m.threshold.percentText)]
  | .compared c => [
    ("reference", quoteText c.referencePlatform),
    ("target", quoteText c.targetPlatform),
    ("has_latency", truth c.latency.isSome),
    ("outputs_identical", truth c.identical)]

def line (e : Event) : String :=
  e.level.label ++ " " ++ e.message ++
    String.join (e.fields.map fun (name, text) => " " ++ name ++ "=" ++ text)

end Event

/-- Which events are shown: those of a target up to a level. The target is the beginning of its
name, and without a level none are. -/
structure Filter where
  target : String
  level : Option Level
  deriving DecidableEq

namespace Filter

def standard : Filter := ⟨"", some .warn⟩

/-- The filter that a setting asks for: `off`, a level, or a target and a level with an equals sign
between them. -/
def ofSetting? (setting : String) : Option Filter :=
  if setting = "off" then some ⟨"", none⟩
  else match Level.named? setting with
    | some level => some ⟨"", some level⟩
    | none =>
      let target := String.ofList (setting.toList.takeWhile (· ≠ '='))
      let name := String.ofList ((setting.toList.dropWhile (· ≠ '=')).drop 1)
      (Level.named? name).map fun level => ⟨target, some level⟩

def ofSetting (setting : Option String) : Filter := (setting.bind ofSetting?).getD standard

def shows (f : Filter) (e : Event) : Bool :=
  match f.level with
  | none => false
  | some level =>
    decide (e.level.rank ≤ level.rank) && f.target.toList.isPrefixOf e.target.toList

end Filter

end LatencyGate
