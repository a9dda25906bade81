import NodeHarness.BlockWait
import NodeHarness.Command
import NodeHarness.NodeStatus
import NodeHarness.Handle

/-! The client of a daemon. Every command is one call to the outside, and every query of a node's
height is one command. A session keeps the calls and the world in which they are logged. -/
namespace NodeHarness

structure Client where
  options : Options
  policy : PollPolicy
  daemon : String

/-- The calls so far, the latest one first, and the world around them. -/
structure Session where
  calls : List Call
  world : World

structure CommandOutput where
  output : List UInt8
  log : String

def CommandOutput.text (o : CommandOutput) : String := Text.Utf8.lossy o.output

def Session.logged (s : Session) (level : Level) (target message : String) : Session :=
  { s with world := s.world.note (.logged level target message) }

namespace Client

def commandTarget : String := "pylons_cli::testing::exec"

def waitTarget : String := "pylons_cli::testing::assert"

def complete (c : Client) (outside : Outside) (words : List String) (s : Session) : List String :=
  Command.complete c.options.nodes (outside.draw s.calls.length) words

/-- Judges a reply: what the command gives, or how it failed, and the record of its run. -/
def judge (c : Client) (words : List String) (reply : Reply) :
    Except Failure CommandOutput × Option String :=
  match reply with
  | .error cause => (.error (.spawn c.daemon cause), none)
  | .ok finished =>
    let log := Command.record c.daemon words finished.output
    (if finished.success then .ok ⟨finished.output, log⟩
      else .error (.command finished.exitCode finished.output log), some log)

def invoke (c : Client) (outside : Outside) (words : List String) (input : String)
    (s : Session) : Except Failure CommandOutput × Session :=
  let words := c.complete outside words s
  let call : Call := ⟨c.daemon, words, input⟩
  let (result, log) := c.judge words (outside.run s.calls.length call)
  let s := s.logged .debug commandTarget (Command.line c.daemon words)
  let s : Session := { s with calls := call :: s.calls }
  (result, match log with
    | some log => s.logged .trace commandTarget log
    | none => s)

def status (c : Client) (outside : Outside) (s : Session) : Except Failure NodeStatus × Session :=
  let (result, s) := c.invoke outside ["status"] "" s
  (match result with
    | .ok o => NodeStatus.ofOutput o.output
    | .error failure => .error failure, s)

def height (c : Client) (outside : Outside) (s : Session) : Except Failure Nat × Session :=
  let (result, s) := c.status outside s
  (result.map NodeStatus.height, s)

/-- The heights of a client: a status command for each of them, and a log in the session. -/
def heightSource (c : Client) (outside : Outside) : BlockWait.Source Session where
  ask := c.height outside
  log level message s := s.logged level waitTarget message

def waitBlocks (c : Client) (outside : Outside) (interval : Nat) (s : Session) :
    Except Failure Nat × Session :=
  (c.heightSource outside).wait interval c.policy s

def waitNextBlock (c : Client) (outside : Outside) (s : Session) : Except Failure Nat × Session :=
  c.waitBlocks outside 1 s

def waitMaxBlocks (c : Client) (outside : Outside) (s : Session) : Except Failure Nat × Session :=
  c.waitBlocks outside c.options.effectiveMaxWaitBlock s

end Client
end NodeHarness
