import NodeHarness.Path
import NodeHarness.Text.Utf8

/-! Daemon commands. A command is completed before it runs: one that asks a node is told which,
and one that opens the keyring is told where the keys are. Both only append. -/
namespace NodeHarness

structure Call where
  program : String
  arguments : List String
  input : String
  deriving DecidableEq

/-- What a program leaves that has ended; a killed one has no exit code. -/
structure Finished where
  output : List UInt8
  exitCode : Option Int
  success : Bool
  deriving DecidableEq

/-- How a run goes: it ends, or cannot begin for a cause that is given as text. -/
abbrev Reply := Except String Finished

/-- The outside: the reply to the call that is made in some place, and the number that decides
which endpoint it asks. -/
structure Outside where
  run : Nat → Call → Reply
  draw : Nat → Nat

namespace Command

def keyringFlag : String := "--keyring-backend"

def keyringKind : String := "test"

def nodeFlag : String := "--node"

def opensKeyring : List String → Bool
  | first :: rest =>
    first == "keys" || first == "tx" && match rest with
      | second :: rest =>
        second == "sign" || second == "pylons" && rest.head? == some "create-account"
      | [] => false
  | [] => false

def asksNode (words : List String) : Bool :=
  match words.head? with
  | some first => first == "query" || first == "tx" || first == "status"
  | none => false

def withKeyring (words : List String) : List String :=
  if opensKeyring words then words ++ [keyringFlag, keyringKind] else words

/-- The endpoint that a drawn number stands for; there is none without endpoints. -/
def endpoint? (nodes : List String) (draw : Nat) : Option String := nodes[draw % nodes.length]?

def withNode (nodes : List String) (draw : Nat) (words : List String) : List String :=
  if asksNode words then
    match endpoint? nodes draw with
    | some node => words ++ [nodeFlag, node]
    | none => words
  else words

/-- The node comes first, the keyring second. -/
def complete (nodes : List String) (draw : Nat) (words : List String) : List String :=
  withKeyring (withNode nodes draw words)

def line (program : String) (words : List String) : String :=
  (Path.fileName? program).getD program ++ " " ++ " ".intercalate words

/-- The record of a run: its line in quotes and its output. -/
def record (program : String) (words : List String) (output : List UInt8) : String :=
  "\"" ++ line program words ++ "\" ==>\n" ++ Text.Utf8.lossy output ++ "\n"

end Command
end NodeHarness
