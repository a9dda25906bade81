/-! The gate that serial root tests pass one at a time. A thread that makes a root looks at the
gate and either takes it or sleeps. A root that is marked parallel, or dropped, gives the gate up
if it still holds it, and wakes one sleeper after the gate is open. Every event is one atomic
step of one thread, so other threads may come in between any two of them. -/
namespace NodeHarness.Gate

/-- A handle as far as the gate knows it. `openings` counts how often the gate was opened on its
account. Only roots ever hold the gate. -/
structure Holder where
  isRoot : Bool
  holds : Bool
  parallel : Bool
  dropped : Bool
  openings : Nat
  deriving DecidableEq

def Holder.root : Holder := ⟨true, true, false, false, 0⟩

def Holder.plain : Holder := ⟨false, false, false, false, 0⟩

inductive Stance
  | idle
  | asking
  | sleeping
  | woken
  | taken
  | opening (handle : Nat)
  | notifying
  deriving DecidableEq

structure State where
  busy : Bool
  threads : List Stance
  handles : List Holder
  deriving DecidableEq

/-- A thread may drop a handle while it unwinds; the gate does not ask. -/
inductive Event
  | ask (thread : Nat)
  | look (thread : Nat)
  | build (thread : Nat)
  | make (thread : Nat)
  | mark (thread handle : Nat)
  | drop (thread handle : Nat) (unwinding : Bool)
  | release (thread : Nat)
  | notify (thread : Nat) (sleeper : Option Nat)
  deriving DecidableEq

namespace State

/-- An open gate and threads that have done nothing yet. -/
def start (threads : Nat) : State := ⟨false, List.replicate threads .idle, []⟩

def stance? (s : State) (thread : Nat) : Option Stance := s.threads[thread]?

def setStance (s : State) (thread : Nat) (stance : Stance) : State :=
  { s with threads := s.threads.set thread stance }

def setHandle (s : State) (handle : Nat) (h : Holder) : State :=
  { s with handles := s.handles.set handle h }

def addHandle (s : State) (h : Holder) : State := { s with handles := s.handles ++ [h] }

def look (s : State) (thread : Nat) : State :=
  if s.busy then s.setStance thread .sleeping
  else { s.setStance thread .taken with busy := true }

/-- Gives up the hold of a handle; the thread must open the gate if there was one. -/
def surrender (s : State) (thread handle : Nat) (h : Holder) : State :=
  let s := s.setHandle handle { h with holds := false }
  if h.holds then s.setStance thread (.opening handle) else s

def isSleeping (s : State) (thread : Nat) : Bool := s.stance? thread = some .sleeping

def anyoneSleeps (s : State) : Bool := s.threads.contains .sleeping

/-- The state after an event, if the event can happen. -/
def step (s : State) : Event → Option State
  | .ask thread =>
    if s.stance? thread = some .idle then some (s.setStance thread .asking) else none
  | .look thread =>
    if s.stance? thread = some .asking ∨ s.stance? thread = some .woken then some (s.look thread)
    else none
  | .build thread =>
    if s.stance? thread = some .taken then some ((s.setStance thread .idle).addHandle .root)
    else none
  | .make thread => if s.stance? thread = some .idle then some (s.addHandle .plain) else none
  | .mark thread handle =>
    match s.stance? thread, s.handles[handle]? with
    | some .idle, some h =>
      if h.dropped then none
      else some (s.surrender thread handle { h with parallel := true })
    | _, _ => none
  | .drop thread handle _ =>
    match s.stance? thread, s.handles[handle]? with
    | some .idle, some h =>
      if h.dropped then none
      else some (s.surrender thread handle { h with dropped := true })
    | _, _ => none
  | .release thread =>
    match s.stance? thread with
    | some (.opening handle) =>
      some { (s.setStance thread .notifying) with
        busy := false
        handles := s.handles.modify handle fun h => { h with openings := h.openings + 1 } }
    | _ => none
  | .notify thread sleeper =>
    if s.stance? thread = some .notifying then
      match sleeper with
      | some other =>
        if s.isSleeping other then
          some ((s.setStance thread .idle).setStance other .woken)
        else none
      | none => if s.anyoneSleeps then none else some (s.setStance thread .idle)
    else none

def after (s : State) (e : Event) : State := (s.step e).getD s

def afterAll (s : State) (events : List Event) : State := events.foldl after s

/-- The sleeper that a notification goes to. -/
def sleeper? (s : State) : Option Nat := s.threads.findIdx? (· = .sleeping)

/-- A thread opens the gate, if it has to, and notifies. -/
def passOn (s : State) (thread : Nat) : State :=
  let s := s.after (.release thread)
  s.after (.notify thread s.sleeper?)

end State

/-- One event after another, from one state to another. -/
inductive Run : State → List Event → State → Prop
  | nil (s : State) : Run s [] s
  | cons {s t u : State} {e : Event} {es : List Event} :
      s.step e = some t → Run t es u → Run s (e :: es) u

end NodeHarness.Gate
