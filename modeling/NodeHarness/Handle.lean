import NodeHarness.Dispatcher
import NodeHarness.Level
import NodeHarness.Fields

/-! Native test handles and the world they act on. A recorder keeps everything in a journal that
it shares with its sub-tests. A printer writes lines and keeps a failure flag of its own. Both
stop a test by halting it; a sub-test that halts does not halt the test it belongs to. -/
namespace NodeHarness

inductive Halt
  | fatal (test message : String)
  | panic (text : String)
  | exit (code : Nat)
  | endless
  deriving DecidableEq

structure FatalStop where
  test : String
  message : String
  deriving DecidableEq

/-- Every line with the name of its test, every fatal stop, and a count of parallel marks. -/
structure Journal where
  lines : List (String × String)
  fatals : List FatalStop
  parallelCalls : Nat
  deriving DecidableEq

def Journal.empty : Journal := ⟨[], [], 0⟩

structure PrinterFlags where
  failed : Bool
  parallel : Bool
  deriving DecidableEq

/-- A handle; a printer knows its place among the printers. -/
inductive Handle
  | recorder (name : String)
  | printer (name : String) (place : Nat)
  deriving DecidableEq

/-- What a step lets be seen besides the journal: listener reports, printed text, and the records
of a context that has no test. -/
inductive Note
  | report (r : Report)
  | printed (text : String)
  | record (level : Level) (fields : Json) (message : String) (fatal : Bool)
  | callSite
  | logged (level : Level) (target message : String)

/-- What is done to a world: an event dispatched by a test, with the notes of its listeners behind
it, a line kept for a test, a fatal stop raised on a handle, a sub-test run from a handle and its
verdict, or another note. -/
inductive Happening
  | dispatched (event : String)
  | line (test text : String)
  | stopped (on : Handle) (message : String)
  | returned (parent sub : Handle) (passed : Bool)
  | noted (n : Note)

/-- `patience` bounds how deep listeners may call each other; the latest note comes first, and so
does the latest happening. -/
structure World where
  patience : Nat
  signals : Signals
  journal : Journal
  printers : List PrinterFlags
  notes : List Note
  history : List Happening

namespace World

def start (patience : Nat) : World := ⟨patience, .empty, .empty, [], [], []⟩

def note (w : World) (n : Note) : World :=
  { w with notes := n :: w.notes, history := .noted n :: w.history }

def taken (w : World) : List Note := w.notes.reverse

def dispatch (w : World) (event : String) : Except Halt World :=
  match w.signals.dispatch w.patience event with
  | none => .error .endless
  | some d =>
    let heard := (d.reports.map .report).reverse
    .ok { w with
      signals := d.signals
      notes := heard ++ w.notes
      history := heard.map .noted ++ .dispatched event :: w.history }

def addPrinter (w : World) : World × Nat :=
  ({ w with printers := w.printers ++ [⟨false, false⟩] }, w.printers.length)

def printerFlags (w : World) (place : Nat) : PrinterFlags := w.printers.getD place ⟨false, false⟩

def setFailed (w : World) (place : Nat) : World :=
  { w with printers := w.printers.modify place fun flags => { flags with failed := true } }

/-- A sub-test that was run from `parent` gave its verdict back. -/
def returned (w : World) (parent sub : Handle) (passed : Bool) : World :=
  { w with history := .returned parent sub passed :: w.history }

def setParallel (w : World) (place : Nat) : World :=
  { w with printers := w.printers.modify place fun flags => { flags with parallel := true } }

end World

/-- How a handle came about: for a test, in a sub-test, or without a test. -/
inductive Origin
  | root
  | subTest
  | detached
  deriving DecidableEq

/-- What is known of a handle from outside. -/
inductive Facts
  | recorded (parallelCalls : Nat) (fatals : List FatalStop) (lineCount : Nat)
  | printed (failed parallel : Bool)

namespace Handle

def standaloneName : String := "standalone"

/-- What a test that is named after its thread is called; the thread may have no name. -/
def threadName (thread : Option String) : String := thread.getD "unnamed"

def name : Handle → String
  | .recorder name => name
  | .printer name _ => name

def log (h : Handle) (line : String) (w : World) : World :=
  match h with
  | .recorder name =>
    { w with
      journal := { w.journal with lines := w.journal.lines ++ [(name, line)] }
      history := .line name line :: w.history }
  | .printer name _ => w.note (.printed ("    " ++ name ++ ": " ++ line))

/-- Marks the test as failed and halts it. -/
def fatal (h : Handle) (message : String) (w : World) : Halt × World :=
  let w := { w with history := .stopped h message :: w.history }
  match h with
  | .recorder name =>
    (.fatal name message,
      { w with journal := { w.journal with fatals := w.journal.fatals ++ [⟨name, message⟩] } })
  | .printer name place => (.panic (name ++ ": " ++ message), w.setFailed place)

def parallel (h : Handle) (w : World) : World :=
  match h with
  | .recorder _ =>
    { w with journal := { w.journal with parallelCalls := w.journal.parallelCalls + 1 } }
  | .printer _ place => w.setParallel place

def callSiteText : String := "<call-site>"

def functionText : String := "<fn>"

def assertionReport (name failure detail : String) : String :=
  "\n\tError Trace:\t" ++ callSiteText ++ "\n\tError:      \t" ++ failure
    ++ "\n\tTest:       \t" ++ name
    ++ (if detail.isEmpty then "" else "\n\tMessages:   \t" ++ detail)

def failAssertion (h : Handle) (failure detail : String) (w : World) : Halt × World :=
  h.fatal (assertionReport h.name failure detail) w

def untrue : String := "Should be true"

def facts (h : Handle) (w : World) : Facts :=
  match h with
  | .recorder _ =>
    .recorded w.journal.parallelCalls w.journal.fatals w.journal.lines.length
  | .printer _ place =>
    let flags := w.printerFlags place
    .printed flags.failed flags.parallel

/-- The handle of a sub-test; a printer's name has no spaces. -/
def child (h : Handle) (sub : String) (w : World) : Handle × World :=
  match h with
  | .recorder name => (.recorder (name ++ "/" ++ sub), w)
  | .printer name _ =>
    let (w, place) := w.addPrinter
    (.printer (name ++ "/" ++ String.ofList (sub.toList.map fun c => if c = ' ' then '_' else c))
      place, w)

/-- Whether a fatal stop belongs to a test or to a test below it. -/
def concerns (test : String) (stop : FatalStop) : Bool :=
  stop.test = test || (test ++ "/").toList.isPrefixOf stop.test.toList

/-- The verdict on a sub-test whose body has ended. `before` fatal stops were in the journal when
it began. A printer also prints the verdict and fails with its sub-test. -/
def conclude (parent sub : Handle) (before : Nat) (halted : Bool) (w : World) : Bool × World :=
  match sub with
  | .recorder name => (!halted && !(w.journal.fatals.drop before).any (concerns name), w)
  | .printer name place =>
    let passed := !halted && !(w.printerFlags place).failed
    let w := if passed then w else
      match parent with
      | .printer _ above => w.setFailed above
      | .recorder _ => w
    let verdict := if passed then "--- PASS: " else "--- FAIL: "
    (passed, w.note (.printed (verdict ++ name ++ " (<t>s)")))

/-- What dropping a printer says: only a root that failed speaks, and not while its thread
unwinds. -/
def dropPanic (h : Handle) (origin : Origin) (unwinding : Bool) (w : World) : Option String :=
  match h with
  | .recorder _ => none
  | .printer name place =>
    if origin = .root ∧ (w.printerFlags place).failed ∧ !unwinding then
      some ("--- FAIL: " ++ name ++ " (one or more sub-tests failed)")
    else none

/-- Dropping the handle of a sub-test, or one that has no test, says nothing. -/
theorem dropPanic_silent (h : Handle) {origin : Origin} (other : origin ≠ .root)
    (unwinding : Bool) (w : World) : h.dropPanic origin unwinding w = none := by
  cases h <;> simp [dropPanic, other]

end Handle
end NodeHarness
