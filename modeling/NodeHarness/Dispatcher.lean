import NodeHarness.Json.Printer

/-! Failure signals. A table holds one listener per event; registering an event again replaces
its listener, and nothing is ever removed. A listener reports that it was called and may then
register and dispatch itself, and make, reset and read flags. Flags are set by a listener of their
own for the failure event.

A dispatch looks its listener up once, at its start, and then runs that listener to its last
action. Listeners can call each other without end, so a dispatch has fuel and gives `none` when
that runs out. -/
namespace NodeHarness

def failEvent : String := "FAIL"

/-- What a listener does after it has reported itself. A flag is known by its place. -/
inductive Action
  | register (event label : String) (actions : List Action)
  | dispatch (event : String)
  | install
  | addFlag
  | reset (flag : Nat)
  | look (flag : Nat)

inductive Listener
  | reporter (label : String) (actions : List Action)
  | trip (flag : Nat)

/-- What is heard of a dispatch: a listener that was called, or how a dispatch of its own went. -/
inductive Report
  | heard (label : String)
  | relayed (label event : String) (ran : Bool)
  deriving DecidableEq

/-- What is done to signals. A dispatch stands where it looks its listener up. -/
inductive Signal
  | registered (event : String)
  | dispatched (event : String)
  | installed (flag : Nat)
  | made (flag : Nat)
  | reset (flag : Nat)
  | seen (flag : Nat) (tripped : Bool)
  deriving DecidableEq

/-- Registered listeners, the state of every flag made so far, and what was done, the latest
first. -/
structure Signals where
  table : List (String × Listener)
  flags : List Bool
  past : List Signal

/-- The signals after a dispatch, what was heard in order, and whether a listener ran. -/
structure Dispatched where
  signals : Signals
  reports : List Report
  ran : Bool

namespace Signals

def empty : Signals := ⟨[], [], []⟩

def record (s : Signals) (done : Signal) : Signals := { s with past := done :: s.past }

def putListener (event : String) (listener : Listener) :
    List (String × Listener) → List (String × Listener)
  | [] => [(event, listener)]
  | (other, old) :: rest =>
    if other = event then (other, listener) :: rest
    else (other, old) :: putListener event listener rest

def put (s : Signals) (event : String) (listener : Listener) : Signals :=
  { s with table := putListener event listener s.table }

def register (s : Signals) (event : String) (listener : Listener) : Signals :=
  (s.put event listener).record (.registered event)

def listener? (s : Signals) (event : String) : Option Listener := s.table.lookup event

def isRegistered (s : Signals) (event : String) : Bool := (s.listener? event).isSome

def pushFlag (s : Signals) : Signals := { s with flags := s.flags ++ [false] }

/-- A new flag that nothing sets. -/
def addFlag (s : Signals) : Signals × Nat :=
  (s.pushFlag.record (.made s.flags.length), s.flags.length)

/-- A new flag that the failure event sets until another listener takes the event over. -/
def install (s : Signals) : Signals × Nat :=
  let flag := s.flags.length
  ((s.pushFlag.put failEvent (.trip flag)).record (.installed flag), flag)

def setFlag (s : Signals) (flag : Nat) (state : Bool) : Signals :=
  { s with flags := s.flags.set flag state }

def tripped (s : Signals) (flag : Nat) : Bool := s.flags.getD flag false

def reset (s : Signals) (flag : Nat) : Signals := (s.setFlag flag false).record (.reset flag)

def look (s : Signals) (flag : Nat) : Signals := s.record (.seen flag (s.tripped flag))

def perform (dispatch : String → Signals → Option Dispatched) (label : String) :
    List Action → Signals → Option (Signals × List Report)
  | [], s => some (s, [])
  | .register event other actions :: rest, s =>
    perform dispatch label rest (s.register event (.reporter other actions))
  | .install :: rest, s => perform dispatch label rest s.install.1
  | .addFlag :: rest, s => perform dispatch label rest s.addFlag.1
  | .reset flag :: rest, s => perform dispatch label rest (s.reset flag)
  | .look flag :: rest, s => perform dispatch label rest (s.look flag)
  | .dispatch event :: rest, s =>
    match dispatch event s with
    | none => none
    | some d =>
      match perform dispatch label rest d.signals with
      | none => none
      | some (s, reports) => some (s, d.reports ++ .relayed label event d.ran :: reports)

/-- Calls the listener that is registered for the event now. -/
def dispatch : Nat → String → Signals → Option Dispatched
  | 0, _, _ => none
  | fuel + 1, event, s =>
    let found := s.listener? event
    let s := s.record (.dispatched event)
    match found with
    | none => some ⟨s, [], false⟩
    | some (.trip flag) => some ⟨s.setFlag flag true, [], true⟩
    | some (.reporter label actions) =>
      match perform (dispatch fuel) label actions s with
      | none => none
      | some (s, reports) => some ⟨s, .heard label :: reports, true⟩

def insertName (name : String) : List String → List String
  | [] => [name]
  | other :: rest => if name < other then name :: other :: rest else other :: insertName name rest

def events (s : Signals) : List String :=
  s.table.foldl (fun sorted (event, _) => insertName event sorted) []

def describe (s : Signals) : String :=
  "EventDispatcher \x7b events: [" ++ Json.joined (s.events.map Text.Quoted.quote) ++ "] \x7d"

end Signals
end NodeHarness
