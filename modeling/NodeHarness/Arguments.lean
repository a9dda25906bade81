import NodeHarness.Options
import NodeHarness.Level

/-! Reading a command line: long options with one value each, a subcommand, and at most one
positional value behind it. A value is checked only when the next argument shows that it is
complete, so a later unknown argument is reported before an earlier bad value. -/
namespace NodeHarness

inductive UsageFault
  | unknownArgument
  | missingValue
  | badValue
  | repeated
  | tooManyValues
  | unknownCommand
  | missingCommand
  | missingArgument
  | helpWanted
  | versionWanted
  deriving DecidableEq

def UsageFault.kind : UsageFault → String
  | .unknownArgument => "UnknownArgument"
  | .missingValue => "InvalidValue"
  | .badValue => "ValueValidation"
  | .repeated => "ArgumentConflict"
  | .tooManyValues => "TooManyValues"
  | .unknownCommand => "InvalidSubcommand"
  | .missingCommand => "DisplayHelpOnMissingArgumentOrSubcommand"
  | .missingArgument => "MissingRequiredArgument"
  | .helpWanted => "DisplayHelp"
  | .versionWanted => "DisplayVersion"

inductive Flag
  | node
  | rest
  | maxWaitBlock
  | maxBroadcast
  | daemon
  | logLevel
  deriving DecidableEq

namespace Flag

def long : Flag → String
  | .node => "node"
  | .rest => "rest"
  | .maxWaitBlock => "max-wait-block"
  | .maxBroadcast => "max-broadcast"
  | .daemon => "daemon"
  | .logLevel => "log-level"

def variableName : Flag → String
  | .node => "PYLONS_NODE"
  | .rest => "PYLONS_REST"
  | .maxWaitBlock => "PYLONS_MAX_WAIT_BLOCK"
  | .maxBroadcast => "PYLONS_MAX_BROADCAST"
  | .daemon => "PYLONS_DAEMON"
  | .logLevel => "PYLONS_LOG_LEVEL"

end Flag

structure Given where
  node : Option String
  rest : Option String
  maxWaitBlock : Option Nat
  maxBroadcast : Option Nat
  daemon : Option String
  logLevel : Option Level
  positional : Option String

namespace Given

def nothing : Given := ⟨none, none, none, none, none, none, none⟩

def has (g : Given) : Flag → Bool
  | .node => g.node.isSome
  | .rest => g.rest.isSome
  | .maxWaitBlock => g.maxWaitBlock.isSome
  | .maxBroadcast => g.maxBroadcast.isSome
  | .daemon => g.daemon.isSome
  | .logLevel => g.logLevel.isSome

def readCount (s : String) : Except UsageFault Nat :=
  match Text.Decimal.read64 s with
  | .ok n => .ok n
  | .error _ => .error .badValue

/-- A path may not be empty. -/
def readPath (s : String) : Except UsageFault String :=
  if s.isEmpty then .error .missingValue else .ok s

def set (g : Given) (flag : Flag) (s : String) : Except UsageFault Given :=
  match flag with
  | .node => .ok { g with node := some s }
  | .rest => .ok { g with rest := some s }
  | .maxWaitBlock => (readCount s).map fun n => { g with maxWaitBlock := some n }
  | .maxBroadcast => (readCount s).map fun n => { g with maxBroadcast := some n }
  | .daemon => (readPath s).map fun s => { g with daemon := some s }
  | .logLevel =>
    match Level.ofText? s with
    | some level => .ok { g with logLevel := some level }
    | none => .error .badValue

/-- Sets from the environment what the command line left open, in the order of `flags`. -/
def fill (environment : List (String × String)) : List Flag → Given → Except UsageFault Given
  | [], g => .ok g
  | flag :: rest, g => do
    let g ← match g.has flag, environment.lookup flag.variableName with
      | false, some s => g.set flag s
      | _, _ => .ok g
    fill environment rest g

def options (g : Given) : Options :=
  ⟨g.node.getD Options.standard.node, g.rest.getD Options.standard.rest,
    g.maxWaitBlock.getD Options.standard.maxWaitBlock,
    g.maxBroadcast.getD Options.standard.maxBroadcast, g.daemon⟩

end Given

inductive PositionalKind
  | count
  | path
  | word
  deriving DecidableEq

structure Grammar where
  flags : List Flag
  commands : List String
  version : Bool
  positional : Option PositionalKind

/-- An argument whose value is not yet checked, or not yet there. -/
inductive Pending
  | nothing
  | flag (flag : Flag) (value : Option String)
  | positional (kind : PositionalKind) (value : String)

structure Parse where
  given : Given
  pending : Pending
  filled : Bool
  trailing : Bool

namespace Parse

def start (given : Given) : Parse := ⟨given, .nothing, false, false⟩

def setFlag (given : Given) (flag : Flag) (value : String) : Except UsageFault Given :=
  if given.has flag then .error .repeated else given.set flag value

def settle (p : Parse) : Except UsageFault Parse :=
  match p.pending with
  | .nothing => .ok p
  | .flag _ none => .error .missingValue
  | .flag flag (some value) =>
    (setFlag p.given flag value).map fun given => { p with given, pending := .nothing }
  | .positional kind value =>
    let checked : Except UsageFault Unit := match kind with
      | .count => (Given.readCount value).map fun _ => ()
      | .path => (Given.readPath value).map fun _ => ()
      | .word => .ok ()
    checked.map fun _ =>
      { p with given := { p.given with positional := some value }, pending := .nothing }

/-- An argument that is neither option nor subcommand. -/
def place (g : Grammar) (p : Parse) (argument : String) : Except UsageFault Parse :=
  match g.positional with
  | some kind =>
    if p.filled then .error .unknownArgument
    else (p.settle).map fun p => { p with pending := .positional kind argument, filled := true }
  | none => .error (if g.commands.isEmpty then .unknownArgument else .unknownCommand)

/-- Asking for help or the version counts only after what is pending was found good. -/
def ask (p : Parse) (wanted : UsageFault) : Except UsageFault Parse :=
  match p.settle with
  | .ok _ => .error wanted
  | .error fault => .error fault

def long (g : Grammar) (p : Parse) (name : String) (value : Option String) :
    Except UsageFault Parse :=
  match g.flags.find? fun flag => flag.long = name with
  | some flag => do
    let p ← p.settle
    match value with
    | some value => (setFlag p.given flag value).map fun given => { p with given }
    | none => .ok { p with pending := .flag flag none }
  | none =>
    if name = "help" ∨ (g.version ∧ name = "version") then
      if value.isSome then .error .tooManyValues
      else p.ask (if name = "help" then .helpWanted else .versionWanted)
    else .error .unknownArgument

/-- Name and value of a long option; the value starts behind the first equals sign. -/
def splitLong (cs : List Char) : String × Option String :=
  let name := String.ofList (cs.takeWhile (· ≠ '='))
  match cs.dropWhile (· ≠ '=') with
  | [] => (name, none)
  | _ :: value => (name, some (String.ofList value))

def short (g : Grammar) (p : Parse) (c : Char) : Except UsageFault Parse :=
  if c = 'h' then p.ask .helpWanted
  else if c = 'V' ∧ g.version then p.ask .versionWanted
  else .error .unknownArgument

/-- An argument in front of which no subcommand and no `--` stood. -/
def step (g : Grammar) (p : Parse) (argument : String) : Except UsageFault Parse :=
  if p.trailing then place g p argument
  else match argument.toList with
    | ['-', '-'] => .ok { p with trailing := true }
    | '-' :: '-' :: cs =>
      let (name, value) := splitLong cs
      long g p name value
    | '-' :: c :: _ => short g p c
    | _ =>
      match p.pending with
      | .flag flag none => .ok { p with pending := .flag flag (some argument) }
      | _ => place g p argument

def expectsCommand (p : Parse) : Bool :=
  !p.trailing && match p.pending with
    | .flag _ none => false
    | _ => true

end Parse

abbrev CommandTail := Option (String × List String)

namespace Grammar

def scan (g : Grammar) (p : Parse) : List String → Except UsageFault (Parse × CommandTail)
  | [] => .ok (p, none)
  | argument :: rest =>
    if p.expectsCommand && g.commands.contains argument then .ok (p, some (argument, rest))
    else do
      let p ← p.step g argument
      g.scan p rest

def finish (g : Grammar) (environment : List (String × String)) (p : Parse) :
    Except UsageFault Given := do
  let p ← p.settle
  Given.fill environment g.flags p.given

def optionFlags : List Flag := [.node, .rest, .maxWaitBlock, .maxBroadcast, .daemon]

def optionsOnly : Grammar := ⟨optionFlags, [], false, none⟩

end Grammar

def Options.ofArguments (environment : List (String × String)) (arguments : List String) :
    Except UsageFault Options := do
  let (p, _) ← Grammar.optionsOnly.scan (Parse.start .nothing) arguments
  let given ← Grammar.optionsOnly.finish environment p
  return given.options

end NodeHarness
