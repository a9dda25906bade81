import NodeHarness.Arguments
import NodeHarness.Directory
import NodeHarness.Lookup
import NodeHarness.Telemetry
import NodeHarness.TxHash

/-! The program: a task, the options of the client that performs it, and a threshold for log
records. A run is a function of everything around it, and gives what is written, the calls of the
daemon, and the exit code. -/
namespace NodeHarness

inductive Task
  | status
  | waitBlocks (count : Option Nat)
  | txHash (file : Option String)
  | accountAddress (name : String)
  deriving DecidableEq

structure Invocation where
  options : Options
  level : Level
  task : Task

namespace Invocation

def programName : String := "pylons-inttest"

def version : String := "0.1.0"

def summary : String := "Helpers for driving a Pylons node from end-to-end tests."

def commandNames : List String := ["status", "wait-blocks", "tx-hash", "account-addr", "help"]

def grammar : Grammar := ⟨Grammar.optionFlags ++ [.logLevel], commandNames, true, none⟩

def tailGrammar (command : String) : Grammar :=
  ⟨[], [], false,
    if command = "wait-blocks" then some .count
    else if command = "tx-hash" then some .path
    else if command = "account-addr" then some .word
    else none⟩

def taskOf (command : String) (value : Option String) : Except UsageFault Task :=
  match command with
  | "status" => .ok .status
  | "wait-blocks" => .ok (.waitBlocks (value.bind fun s => (Text.Decimal.read64 s).toOption))
  | "tx-hash" => .ok (.txHash value)
  | _ =>
    match value with
    | some name => .ok (.accountAddress name)
    | none => .error .missingArgument

def helpFor : List String → UsageFault
  | [] => .helpWanted
  | [command] => if commandNames.contains command then .helpWanted else .unknownCommand
  | _ => .unknownCommand

def readTask (command : String) (arguments : List String) : Except UsageFault Task := do
  if command = "help" then
    .error (helpFor arguments)
  let grammar := tailGrammar command
  let (p, _) ← grammar.scan (Parse.start .nothing) arguments
  let given ← grammar.finish [] p
  taskOf command given.positional

def defaultLevel : Level := .info

def ofArguments (environment : List (String × String)) (arguments : List String) :
    Except UsageFault Invocation := do
  let (p, tail) ← grammar.scan (Parse.start .nothing) arguments
  match tail with
  | none =>
    let _ ← p.settle
    .error .missingCommand
  | some (command, rest) =>
    let task ← readTask command rest
    let given ← grammar.finish environment p
    return ⟨given.options, given.logLevel.getD defaultLevel, task⟩

end Invocation

structure Surroundings where
  environment : List (String × String)
  isFile : String → Bool
  read : String → Except FileFault (List UInt8)
  input : List UInt8
  outside : Outside

/-- What a run leaves. The complaint comes after the records. -/
structure RunReport where
  exitCode : Nat
  output : String
  records : List LogRecord
  complaint : Option String
  calls : List Call

/-- How a task ends: with text, with an error and its causes, or with the whole process. -/
inductive Outcome
  | output (text : String)
  | error (message : String) (causes : List String)
  | halt (exitCode : Nat)

namespace Complaint

def newline : List Char := ['\n']

/-- Sets a text in; `first` stands before its first line and `later` before the others. -/
def indent (first later s : String) : String :=
  first ++ String.ofList (Text.joinWith (newline ++ later.toList) (Text.pieces '\n' s.toList))

def numbered (n : Nat) : String :=
  let digits := Text.Decimal.text n
  String.ofList (List.replicate (5 - digits.length) ' ') ++ digits

def causeLines (causes : List String) : List String :=
  match causes with
  | [cause] => [indent "    " "    " cause]
  | causes => causes.mapIdx fun i cause => indent (numbered i ++ ": ") "       " cause

/-- An error and what caused it; several causes are numbered from zero. -/
def text (message : String) (causes : List String) : String :=
  "Error: " ++ message
    ++ if causes.isEmpty then "" else "\n\nCaused by:\n" ++ "\n".intercalate (causeLines causes)

end Complaint

namespace Invocation

def failed (f : Failure) : Outcome := .error f.message f.sources

def printed (n : Nat) : Outcome := .output (Text.Decimal.text n ++ "\n")

def client (i : Invocation) (s : Surroundings) : Client :=
  ⟨i.options, PollPolicy.standard,
    i.options.daemonPath (s.environment.lookup "GOPATH") s.isFile⟩

/-- The hash in some bytes; `source` tells where they come from. -/
def hashIn (source : String) (read : Except FileFault (List UInt8)) : Outcome :=
  let decoded : Except FileFault String := match read with
    | .error fault => .error fault
    | .ok bytes =>
      match Text.Utf8.decode? bytes with
      | some s => .ok s
      | none => .error .notText
  match decoded with
  | .error fault => .error ("reading " ++ source) [fault.message]
  | .ok s =>
    let hash := TxHash.extract s
    if hash.isEmpty then .error "no txhash found in input" [] else .output (hash ++ "\n")

/-- The context of a lookup that belongs to no test. -/
def context (w : World) : Context × World :=
  let (w, place) := w.addPrinter
  (.root .standalone (.printer Handle.standaloneName place), w)

def perform (i : Invocation) (s : Surroundings) (session : Session) : Outcome × Session :=
  let c := i.client s
  match i.task with
  | .status =>
    let (result, session) := c.status s.outside session
    (match result with
      | .ok status => printed status.height
      | .error f => failed f, session)
  | .waitBlocks count =>
    let (result, session) :=
      c.waitBlocks s.outside (count.getD i.options.effectiveMaxWaitBlock) session
    (match result with
      | .ok height => printed height
      | .error f => failed f, session)
  | .txHash none => (hashIn "stdin" (.ok s.input), session)
  | .txHash (some file) => (hashIn file (s.read file), session)
  | .accountAddress name =>
    let (t, world) := context session.world
    let (result, session) := Lookup.address c s.outside name t { session with world }
    (match result with
      | .ok address => .output (address ++ "\n")
      | .error (.exit code) => .halt code
      | .error _ => .halt 1, session)

def telemetry (i : Invocation) : Telemetry :=
  (Telemetry.start.perform none (.initFilter i.level.directive)).2

/-- No listener is registered in a run, so one dispatch is as deep as any. -/
def run (i : Invocation) (s : Surroundings) : RunReport :=
  let (outcome, session) := i.perform s ⟨[], World.start 1⟩
  let records := i.telemetry.written (session.world.taken.filterMap LogRecord.ofNote?)
  let calls := session.calls.reverse
  match outcome with
  | .output text => ⟨0, text, records, none, calls⟩
  | .error message causes => ⟨1, "", records, some (Complaint.text message causes), calls⟩
  | .halt code => ⟨code, "", records, none, calls⟩

end Invocation

namespace UsageFault

def help : String :=
  Invocation.summary ++ "\n\nUsage: " ++ Invocation.programName ++ " [OPTIONS] <COMMAND>\n"

def report : UsageFault → RunReport
  | .helpWanted => ⟨0, help, [], none, []⟩
  | .versionWanted => ⟨0, Invocation.programName ++ " " ++ Invocation.version ++ "\n", [], none, []⟩
  | fault => ⟨2, "", [], some ("error: " ++ fault.kind), []⟩

end UsageFault

def runProgram (arguments : List String) (s : Surroundings) : RunReport :=
  match Invocation.ofArguments s.environment arguments with
  | .error fault => fault.report
  | .ok i => i.run s

end NodeHarness
