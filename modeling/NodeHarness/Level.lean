import NodeHarness.Json.Reading

/-! Severity levels, from least to most verbose. A record is written when its level is at most
the threshold. -/
namespace NodeHarness

inductive Level
  | fatal
  | error
  | warn
  | info
  | debug
  | trace
  deriving DecidableEq

namespace Level

def all : List Level := [.fatal, .error, .warn, .info, .debug, .trace]

def rank : Level → Nat
  | .fatal => 0
  | .error => 1
  | .warn => 2
  | .info => 3
  | .debug => 4
  | .trace => 5

def default : Level := .debug

def enabledAt (level threshold : Level) : Bool := level.rank ≤ threshold.rank

def order (a b : Level) : Ordering := compare a.rank b.rank

def name : Level → String
  | .fatal => "fatal"
  | .error => "error"
  | .warn => "warn"
  | .info => "info"
  | .debug => "debug"
  | .trace => "trace"

def title : Level → String
  | .fatal => "Fatal"
  | .error => "Error"
  | .warn => "Warn"
  | .info => "Info"
  | .debug => "Debug"
  | .trace => "Trace"

/-- The level that a filter knows; filters have no level for fatal records. -/
def directive : Level → String
  | .fatal => "error"
  | level => level.name

def ofText? (s : String) : Option Level :=
  match String.ofList ((Text.trim s.toList).map Char.toLower) with
  | "fatal" => some .fatal
  | "panic" => some .fatal
  | "error" => some .error
  | "warn" => some .warn
  | "warning" => some .warn
  | "info" => some .info
  | "debug" => some .debug
  | "trace" => some .trace
  | _ => none

def refusal (s : String) : String :=
  "unknown log level '" ++ s ++ "', expected one of fatal|error|warn|info|debug|trace"

def toJson (level : Level) : Json := .text level.name

def ofName (s : String) : Except Json.Fault Level :=
  match all.find? fun level => level.name = s with
  | some level => .ok level
  | none => .error (.unknownVariant s (all.map name))

/-- The fault where a name should stand but something else does. -/
def nameFault (o : Json.Outline) : Json.Fault :=
  match o.found with
  | .ok found => .wrongKind found "variant identifier"
  | .error fault => fault

/-- Reads the member that stands for a level: its name, and null as its value. -/
def ofMembers (members : List (Json.QuotedText × Json.Outline)) (finish : Json.ObjectEnd) :
    Except Json.Fault Level :=
  match members with
  | [] =>
    match finish with
    | .endOfInput => .error .endInValue
    | .nameNotText rest => .error (nameFault (Json.outlineOf rest).1)
    | _ => .error .expectedValue
  | (name, content) :: rest => do
    let level ← ofName (← name.decode)
    match content with
    | .null =>
      match rest, finish with
      | [], .closed => .ok level
      | [], .endOfInput => .error .endInObject
      | _, _ => .error .expectedValue
    | content => content.wrongKind "unit"

/-- Reads a level: its name, or an object with one member of that name. -/
def ofOutline : Json.Outline → Except Json.Fault Level
  | .text t => do ofName (← t.decode)
  | .object members finish => ofMembers members finish
  | _ => .error .expectedValue

def ofJsonText (s : String) : Except Json.Fault Level :=
  let bytes := Text.Utf8.encode s
  if (Json.skipSpace bytes).isEmpty then .error .endInValue
  else (Json.documentOf bytes).decode ofOutline

end Level
end NodeHarness
