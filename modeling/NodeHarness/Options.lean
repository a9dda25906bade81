import NodeHarness.Path
import NodeHarness.Text.Decimal

/-! How to reach the node under test, and how long to wait for it. -/
namespace NodeHarness

structure Options where
  node : String
  rest : String
  maxWaitBlock : Nat
  maxBroadcast : Nat
  daemon : Option String
  deriving DecidableEq

/-- The greatest number of 64 bits, where sums and products of counts stop. -/
def largest64 : Nat := Text.Decimal.words64 - 1

namespace Options

def daemonName : String := "pylonsd"

def standard : Options := ⟨"tcp://localhost:26657", "http://localhost:1317", 0, 0, none⟩

def effectiveMaxWaitBlock (o : Options) : Nat := if o.maxWaitBlock = 0 then 3 else o.maxWaitBlock

def effectiveMaxBroadcast (o : Options) : Nat := if o.maxBroadcast = 0 then 50 else o.maxBroadcast

/-- The entries of a comma-separated list, trimmed, blank ones left out. -/
def endpoints (list : List Char) : List (List Char) :=
  ((Text.pieces ',' list).map Text.trim).filter fun entry => !entry.isEmpty

def nodes (o : Options) : List String := (endpoints o.node.toList).map String.ofList

/-- The daemon to run: the one that was named, else the one in the workspace if it is a file
there, else the one that the search path has. -/
def daemonPath (o : Options) (workspace : Option String) (isFile : String → Bool) : String :=
  match o.daemon with
  | some path => path
  | none =>
    match workspace with
    | none => daemonName
    | some directory =>
      let candidate := Path.join (Path.join directory "bin") daemonName
      if isFile candidate then candidate else daemonName

end Options

/-- The spacing of polls in milliseconds, and how many polls every block may cost. -/
structure PollPolicy where
  interval : Nat
  pollsPerBlock : Nat
  deriving DecidableEq

namespace PollPolicy

def standard : PollPolicy := ⟨100, 300⟩

def maxPolls (policy : PollPolicy) (blocks : Nat) : Nat :=
  min (policy.pollsPerBlock * blocks) largest64

end PollPolicy
end NodeHarness
