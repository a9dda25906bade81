import NodeHarness.Telemetry.Filter

/-! Installing the log output of a process. It is installed at most once: the plain log calls are
connected first, then the filter becomes active, then the installation is marked. A call that
fails on the way leaves what was done before it. -/
namespace NodeHarness

structure Telemetry where
  connected : Bool
  active : Option Filter
  installed : Bool
  deriving DecidableEq

/-- How a process asks for log output: by its environment, by a given filter, or by its
environment unless that was done before. -/
inductive TelemetryCall
  | init
  | initFilter (text : String)
  | tryInit
  deriving DecidableEq

namespace Telemetry

def start : Telemetry := ⟨false, none, false⟩

def standardFilter : Filter := Filter.ofDirectives [⟨none, none, false, some .info⟩]

/-- The filter of the environment; one that cannot be read counts as none. -/
def environmentFilter (read : String → Option Filter) (setting : Option String) : Filter :=
  (setting.bind read).getD standardFilter

def install (t : Telemetry) (f : Filter) : Bool × Telemetry :=
  if t.connected then (false, t)
  else if t.active.isSome then (false, { t with connected := true })
  else (true, ⟨true, some f, true⟩)

/-- Answers a call; what a text means as a filter is for the reader to say. -/
def performWith (read : String → Option Filter) (setting : Option String) (t : Telemetry) :
    TelemetryCall → Bool × Telemetry
  | .init => t.install (environmentFilter read setting)
  | .initFilter text =>
    match read text with
    | some f => t.install f
    | none => (false, t)
  | .tryInit => if t.installed then (false, t) else t.install (environmentFilter read setting)

def perform (setting : Option String) (t : Telemetry) (call : TelemetryCall) : Bool × Telemetry :=
  t.performWith Filter.ofText? setting call

def written (t : Telemetry) (records : List LogRecord) : List LogRecord :=
  match t.active with
  | some f => records.filter f.passes
  | none => []

end Telemetry
end NodeHarness
