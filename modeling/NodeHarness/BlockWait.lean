import NodeHarness.Failure
import NodeHarness.Level
import NodeHarness.Options

/-! Waiting for blocks: the height is asked for once to begin with and then polled until it is
far enough, an answer fails, or the polls are used up. A wait works on any source of heights: on a
client that runs a command for each query, and on a sequence of replies, of which it is then a
function, as is the number of replies that it uses. -/
namespace NodeHarness.BlockWait

/-- Where the heights come from, one with each query, and where a wait tells how it goes. -/
structure Source (State : Type) where
  ask : State → Except Failure Nat × State
  log : Level → String → State → State

namespace Source

variable {State : Type} (source : Source State)

def reachedText (height polls goal : Nat) : String :=
  "height " ++ Text.Decimal.text height ++ " reached after " ++ Text.Decimal.text polls
    ++ " polls (wanted " ++ Text.Decimal.text goal ++ ")"

def pendingText (height goal : Nat) : String :=
  "height " ++ Text.Decimal.text height ++ " < " ++ Text.Decimal.text goal ++ ", polling again"

/-- Polls until `remaining` polls are used; `polls` of them were used before, and the last one
saw the height `last`. -/
def poll (goal : Nat) (onTimeout : Nat → Failure) :
    Nat → Nat → Nat → State → Except Failure Nat × State
  | 0, _, last, s => (.error (onTimeout last), s)
  | remaining + 1, polls, _, s =>
    match source.ask s with
    | (.error failure, s) => (.error (.statusUnavailable failure), s)
    | (.ok height, s) =>
      if goal ≤ height then
        (.ok height, source.log .debug (reachedText height (polls + 1) goal) s)
      else
        poll goal onTimeout remaining (polls + 1) height
          (source.log .trace (pendingText height goal) s)

/-- Waits until the height is `interval` above the one that the first query sees. -/
def wait (interval : Nat) (policy : PollPolicy) (s : State) : Except Failure Nat × State :=
  match source.ask s with
  | (.error failure, s) => (.error (.statusUnavailable failure), s)
  | (.ok start, s) =>
    if interval = 0 then (.ok start, s)
    else
      let polls := policy.maxPolls interval
      source.poll (min (start + interval) largest64)
        (fun last => .waitTimeout interval start last polls) polls 0 start s

end Source

/-- Answers to the queries, in order and without end. -/
abbrev Replies := Nat → Except Failure Nat

structure Outcome where
  result : Except Failure Nat
  queries : Nat

/-- The replies one after the other; the state is how many were used. -/
def ofReplies (replies : Replies) : Source Nat where
  ask queries := (replies queries, queries + 1)
  log _ _ queries := queries

def wait (replies : Replies) (interval : Nat) (policy : PollPolicy) : Outcome :=
  let (result, queries) := (ofReplies replies).wait interval policy 0
  ⟨result, queries⟩

/-- A sequence that repeats the last entry of a list. -/
def repeatLast (fallback : Except Failure Nat) (entries : List (Except Failure Nat)) : Replies :=
  fun i => (entries[min i (entries.length - 1)]?).getD fallback

end NodeHarness.BlockWait
