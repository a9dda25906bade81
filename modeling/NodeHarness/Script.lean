import NodeHarness.Context

/-! Scripts of context steps, and what running one lets be seen. A step works on a named context;
the body of a sub-test sees a copy of the names in which `t` is the sub-test's own context. A
halted step ends the body it stands in, and the sub-test around it takes the halt up, unless it
ends the process. -/
namespace NodeHarness

/-- The levels of plain log calls, with the call that has no level. -/
inductive Voice
  | plain
  | info
  | at (level : Level)

inductive Operation
  | withFields (fields : List (String × Payload)) (target : String)
  | say (voice : Voice) (message : String)
  | fatal (message : String)
  | mustBeTrue (value : Bool)
  | mustBeOk (result : Except String Json)
  | mustBeNone (error : Option String)
  | parallel
  | dispatch (event : String)
  | register (event label : String) (actions : List Action)
  | install (flag : String)
  | unwired (flag : String)
  | clone (flag copy : String)
  | abortIfTripped (flag : String)
  | tripped (flag : String)
  | reset (flag : String)
  | inspect
  | describe
  | linesFor (test : String)
  | requireTrue (value : Bool) (message : String)
  | failAssertion (failure detail : String)
  | panic (text : String)
  deriving Inhabited

inductive Step
  | leaf (on : String) (operation : Operation)
  | run (on : String) (name : String) (body : List Step)
  deriving Inhabited

inductive Answer
  | nothing
  | flag (b : Bool)
  | value (v : Json)
  | renders (receiver derived : String)
  | text (s : String)
  | lines (lines : Option (List String))
  | inspection (c : Context) (facts : Facts)

/-- What running a step lets be seen: its notes, and its answer or halt with the lines that the
journal gained; or the sub-test's name, its steps, and how it ended. -/
inductive Trace
  | leaf (notes : List Note) (answer : Except Halt Answer) (lines : List String)
  | run (entered : String) (body : List Trace) (notes : List Note)
      (verdict : Option (Bool × Facts))

/-- Named contexts and named flags. -/
structure Scope where
  contexts : List (String × Context)
  fallback : Context

namespace Scope

def context (s : Scope) (name : String) : Context := (s.contexts.lookup name).getD s.fallback

def bind (s : Scope) (name : String) (c : Context) : Scope :=
  { s with contexts := (name, c) :: s.contexts.filter fun (other, _) => other != name }

def self : String := "t"

def ofRoot (c : Context) : Scope := ⟨[(self, c), ("root", c)], c⟩

end Scope

/-- The world of a script also knows its flags by name. -/
structure Stage where
  world : World
  flagNames : List (String × Nat)

namespace Stage

def flag (s : Stage) (name : String) : Nat :=
  (s.flagNames.lookup name).getD s.world.signals.flags.length

def bindFlag (s : Stage) (name : String) (flag : Nat) : Stage :=
  { s with flagNames := (name, flag) :: s.flagNames.filter fun (other, _) => other != name }

/-- Gives a flag a second name; a flag that is not there has none. -/
def cloneFlag (s : Stage) (name copy : String) : Stage :=
  { s with flagNames := match s.flagNames.lookup name with
      | some place => (copy, place) :: s.flagNames.filter fun (other, _) => other != copy
      | none => s.flagNames }

def withSignals (s : Stage) (signals : Signals) : Stage :=
  { s with world := { s.world with signals } }

def withWorld (s : Stage) (world : World) : Stage := { s with world }

end Stage

structure Done where
  answer : Except Halt Answer
  scope : Scope
  stage : Stage

namespace Operation

def quiet (scope : Scope) (stage : Stage) : Done := ⟨.ok .nothing, scope, stage⟩

def checked (scope : Scope) (stage : Stage) (c : Context.Checked) : Done :=
  ⟨match c.1 with
    | none => .ok .nothing
    | some halt => .error halt, scope, stage.withWorld c.2⟩

def sayAs (c : Context) (voice : Voice) (message : String) (w : World) : World :=
  match voice with
  | .plain => c.log message w
  | .info => c.info message w
  | .at level => c.logAt level message w

def linesOf (c : Context) (test : String) (w : World) : Option (List String) :=
  match c.handle with
  | .recorder _ =>
    some ((w.journal.lines.filter fun (name, _) => name = test).map Prod.snd)
  | .printer _ _ => none

def exec (operation : Operation) (c : Context) (scope : Scope) (stage : Stage) : Done :=
  let w := stage.world
  match operation with
  | .withFields fields target =>
    let derived := c.withFields (Fields.ofPayloads fields)
    ⟨.ok (.renders c.render derived.render), scope.bind target derived, stage⟩
  | .say voice message => quiet scope (stage.withWorld (sayAs c voice message w))
  | .fatal message => checked scope stage (Context.violated (c.fatal message w))
  | .mustBeTrue value => checked scope stage (c.mustBeTrue value w)
  | .mustBeOk result =>
    let (result, w) := c.mustBeOk result w
    ⟨result.map .value, scope, stage.withWorld w⟩
  | .mustBeNone error => checked scope stage (c.mustBeNone error w)
  | .parallel => quiet scope (stage.withWorld (c.handle.parallel w))
  | .dispatch event =>
    match w.dispatch event with
    | .ok w => quiet scope (stage.withWorld w)
    | .error halt => ⟨.error halt, scope, stage⟩
  | .register event label actions =>
    quiet scope (stage.withSignals (w.signals.register event (.reporter label actions)))
  | .install flag =>
    let (signals, place) := w.signals.install
    quiet scope ((stage.withSignals signals).bindFlag flag place)
  | .unwired flag =>
    let (signals, place) := w.signals.addFlag
    quiet scope ((stage.withSignals signals).bindFlag flag place)
  | .clone flag copy => quiet scope (stage.cloneFlag flag copy)
  | .abortIfTripped flag => checked scope stage (c.abortIfTripped (stage.flag flag) w)
  | .tripped flag => ⟨.ok (.flag (w.signals.tripped (stage.flag flag))), scope, stage⟩
  | .reset flag => quiet scope (stage.withSignals (w.signals.reset (stage.flag flag)))
  | .inspect => ⟨.ok (.inspection c (c.handle.facts w)), scope, stage⟩
  | .describe => ⟨.ok (.text c.describe), scope, stage⟩
  | .linesFor test => ⟨.ok (.lines (linesOf c test w)), scope, stage⟩
  | .requireTrue value message => checked scope stage (c.requireTrue value message w)
  | .failAssertion failure detail =>
    checked scope stage (Context.violated (c.handle.failAssertion failure detail w))
  | .panic text => ⟨.error (.panic text), scope, stage⟩

end Operation

/-- Whether a sub-test takes this halt up. -/
def Halt.caught : Halt → Bool
  | .fatal _ _ => true
  | .panic _ => true
  | .exit _ => false
  | .endless => false

/-- What was seen of some steps, with the names and the world after them, and the halt of the
last one. -/
structure Played where
  traces : List Trace
  scope : Scope
  stage : Stage
  halt : Option Halt

/-- A world without the notes that were taken from it. -/
def Stage.clearNotes (s : Stage) : Stage := s.withWorld { s.world with notes := [] }

def playLeaf (name : String) (operation : Operation) (scope : Scope) (stage : Stage) : Played :=
  let before := stage.world.journal.lines.length
  let done := operation.exec (scope.context name) scope stage
  let lines := (done.stage.world.journal.lines.drop before).map Prod.snd
  ⟨[.leaf done.stage.world.taken done.answer lines], done.scope, done.stage.clearNotes,
    match done.answer with
    | .ok _ => none
    | .error halt => some halt⟩

structure Opening where
  handle : Handle
  scope : Scope
  stage : Stage

def openRun (name sub : String) (scope : Scope) (stage : Stage) : Opening :=
  let c := scope.context name
  let (handle, w) := c.handle.child sub stage.world
  ⟨handle, scope.bind Scope.self { c with handle }, stage.withWorld w⟩

/-- Closes a sub-test whose body was played from `scope`. The handle is dropped when the body ends,
which counts as a panic of the body if it says anything. -/
def closeRun (parent sub : Handle) (before : Nat) (scope : Scope) (body : Played) : Played :=
  match body.halt with
  | some halt =>
    if halt.caught then
      let given := parent.conclude sub before true body.stage.world
      let w := given.2.returned parent sub given.1
      ⟨[.run sub.name body.traces w.taken (some (given.1, parent.facts w))], scope,
        (body.stage.withWorld w).clearNotes, none⟩
    else ⟨[.run sub.name body.traces [] none], scope, body.stage, some halt⟩
  | none =>
    let said := sub.dropPanic .subTest false body.stage.world
    let given := parent.conclude sub before said.isSome body.stage.world
    let w := given.2.returned parent sub given.1
    ⟨[.run sub.name body.traces w.taken (some (given.1, parent.facts w))], scope,
      (body.stage.withWorld w).clearNotes, none⟩

mutual

def playStep : Step → Scope → Stage → Played
  | .leaf name operation, scope, stage => playLeaf name operation scope stage
  | .run name sub body, scope, stage =>
    let opened := openRun name sub scope stage
    closeRun (scope.context name).handle opened.handle opened.stage.world.journal.fatals.length
      scope (playSteps body opened.scope opened.stage)

def playSteps : List Step → Scope → Stage → Played
  | [], scope, stage => ⟨[], scope, stage, none⟩
  | step :: rest, scope, stage =>
    let first := playStep step scope stage
    match first.halt with
    | some halt => ⟨first.traces, first.scope, first.stage, some halt⟩
    | none =>
      let later := playSteps rest first.scope first.stage
      ⟨first.traces ++ later.traces, later.scope, later.stage, later.halt⟩

end

inductive HandleKind
  | recorder
  | printer
  deriving DecidableEq

/-- How a script ends: with the exit code, and a halt of its own or of dropping the root. -/
structure Ending where
  traces : List Trace
  halt : Option Halt
  exitCode : Nat

def freshRoot (patience : Nat) (kind : HandleKind) (name : String) : Handle × World :=
  let world := World.start patience
  match kind with
  | .recorder => (.recorder name, world)
  | .printer =>
    let (world, place) := world.addPrinter
    (.printer name place, world)

def playFresh (patience : Nat) (kind : HandleKind) (backend : Backend) (name : String)
    (steps : List Step) : Played :=
  let (handle, world) := freshRoot patience kind name
  playSteps steps (Scope.ofRoot (.root backend handle)) ⟨world, []⟩

/-- Plays a script on a fresh root context, and drops the root. -/
def playScript (patience : Nat) (kind : HandleKind) (backend : Backend) (name : String)
    (steps : List Step) : Ending :=
  let (handle, _) := freshRoot patience kind name
  let played := playFresh patience kind backend name steps
  match played.halt with
  | some (.exit code) => ⟨played.traces, some (.exit code), code⟩
  | halt =>
    let said := handle.dropPanic backend.origin halt.isSome played.stage.world
    ⟨played.traces, halt.or (said.map .panic), 0⟩

end NodeHarness
