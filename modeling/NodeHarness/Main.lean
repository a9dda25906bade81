import NodeHarness.CommandLine
import NodeHarness.Programs

/-! The program's outer layer. It gathers what is around a run, runs, and writes what the run
leaves. -/
namespace NodeHarness.Console

def settingNames : List String := "GOPATH" :: Invocation.grammar.flags.map Flag.variableName

def faultOf : IO.Error → FileFault
  | .permissionDenied .. => .denied
  | .inappropriateType _ code _ => if code = 21 then .isDirectory else .notDirectory
  | .invalidArgument .. => .nameTooLong
  | _ => .missing

def environment : IO (List (String × String)) := do
  let settings ← settingNames.mapM fun name => do
    return (← IO.getEnv name).map fun value => (name, value)
  return settings.filterMap id

def readFile (path : String) : IO (Except FileFault (List UInt8)) := do
  try
    return .ok (← IO.FS.readBinFile path).toList
  catch e => return .error (faultOf e)

def fileOf (settings : List (String × String)) (arguments : List String) : Option String :=
  match Invocation.ofArguments settings arguments with
  | .ok i =>
    match i.task with
    | .txHash file => file
    | .status => none
    | .waitBlocks _ => none
    | .accountAddress _ => none
  | .error _ => none

def readsInput (settings : List (String × String)) (arguments : List String) : Bool :=
  match Invocation.ofArguments settings arguments with
  | .ok i => i.task == .txHash none
  | .error _ => false

def drawLimit : Nat := 1000000

def surroundings (arguments : List String) : IO Surroundings := do
  let settings ← environment
  let draw ← IO.rand 0 drawLimit
  let file ← match fileOf settings arguments with
    | some path => readFile path
    | none => pure (.error .missing)
  let input ← if readsInput settings arguments then
      pure (← (← IO.getStdin).readBinToEnd).toList
    else pure []
  let workspaceDaemon ← match settings.lookup "GOPATH" with
    | some directory => readFile (Path.join (Path.join directory "bin") Options.daemonName)
    | none => pure (.error .missing)
  return ⟨settings, fun _ => workspaceDaemon.toOption.isSome, fun _ => file,
    input, ⟨fun _ call => Programs.run call, fun i => draw + i⟩⟩

end NodeHarness.Console

open NodeHarness in
def main (arguments : List String) : IO UInt32 := do
  let report := runProgram arguments (← Console.surroundings arguments)
  (← IO.getStdout).putStr report.output
  for r in report.records do
    (← IO.getStderr).putStrLn r.line
  if let some complaint := report.complaint then
    (← IO.getStderr).putStrLn complaint
  return UInt32.ofNat report.exitCode
