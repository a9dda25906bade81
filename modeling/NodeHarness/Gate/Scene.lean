import NodeHarness.Gate
import NodeHarness.Handle

/-! Two roots at the gate. The first root exists while the thread of a second one waits for it;
as soon as the second one is built it is marked parallel. After everything that is done to the
first root, the second thread goes as far as it can. -/
namespace NodeHarness.Gate

inductive Deed
  | parallel
  | subParallel
  | subFatal
  | detachedParallel
  | fatal
  | drop
  deriving DecidableEq

/-- `first` is gone once it was dropped. -/
structure Scene where
  gate : State
  world : World
  first : Option Handle

structure Sight where
  panic : Option String
  secondBuilt : Bool
  facts : Option Facts

namespace Scene

def firstThread : Nat := 0

def secondThread : Nat := 1

def firstPlace : Nat := 0

def settle (s : State) : State :=
  let s := s.after (.look secondThread)
  let place := s.handles.length
  (s.afterAll [.build secondThread, .mark secondThread place]).passOn secondThread

/-- The second thread is idle again only when its root is built. -/
def secondBuilt (s : State) : Bool := s.stance? secondThread = some .idle

def begin : Scene :=
  let (world, place) := (World.start 1).addPrinter
  let gate := (State.start 2).afterAll [.ask firstThread, .look firstThread, .build firstThread,
    .ask secondThread]
  ⟨settle gate, world, some (.printer "first" place)⟩

/-- Runs a sub-test `sub` whose body does one thing. -/
def runSub (parent : Handle) (body : Handle → World → Bool × World) (w : World) : World :=
  let before := w.journal.fatals.length
  let (sub, w) := parent.child "sub" w
  let (halted, w) := body sub w
  (parent.conclude sub before halted w).2

def haltText : Halt → Option String
  | .panic text => some text
  | _ => none

/-- A deed on a root that is still there. -/
def perform (s : Scene) (first : Handle) : Deed → Option String × Scene
  | .parallel =>
    let gate := (s.gate.after (.mark firstThread firstPlace)).passOn firstThread
    (none, { s with gate, world := first.parallel s.world })
  | .subParallel =>
    let place := s.gate.handles.length
    let gate := (s.gate.afterAll [.make firstThread, .mark firstThread place]).passOn firstThread
    (none, { s with gate, world := runSub first (fun sub w => (false, sub.parallel w)) s.world })
  | .subFatal =>
    let world := runSub first (fun sub w => (true, (sub.fatal "boom" w).2)) s.world
    (none, { s with world })
  | .detachedParallel =>
    let place := s.gate.handles.length
    let gate := (s.gate.afterAll [.make firstThread, .mark firstThread place]).passOn firstThread
    (none, { s with gate })
  | .fatal =>
    let (halt, world) := first.fatal "stop" s.world
    (haltText halt, { s with world })
  | .drop =>
    let gate := (s.gate.after (.drop firstThread firstPlace false)).passOn firstThread
    (first.dropPanic .root false s.world, { s with gate, first := none })

def act (s : Scene) (deed : Deed) : Sight × Scene :=
  let (panic, s) := match s.first with
    | some first => s.perform first deed
    | none => (none, s)
  let s := { s with gate := settle s.gate }
  (⟨panic, secondBuilt s.gate, s.first.map fun first => first.facts s.world⟩, s)

end Scene
end NodeHarness.Gate
