import NodeHarness.Handle
import NodeHarness.Payload

/-! Test contexts. A context adds fields, a threshold and a backend to a handle. A native context
logs through its handle and halts the test; a standalone one writes records and, when a check is
violated, ends the process. Every violated check dispatches the failure event before anything
else of it can be seen. -/
namespace NodeHarness

inductive Backend
  | native
  | standalone
  deriving DecidableEq

structure Context where
  handle : Handle
  fields : Fields
  level : Level
  backend : Backend

namespace Backend

def name : Backend → String
  | .native => "Native"
  | .standalone => "Standalone"

def level : Backend → Level
  | .native => .debug
  | .standalone => .trace

/-- Where the handle of a root context comes from. -/
def origin : Backend → Origin
  | .native => .root
  | .standalone => .detached

end Backend

namespace Context

def root (backend : Backend) (handle : Handle) : Context :=
  ⟨handle, .empty, backend.level, backend⟩

/-- The context with more fields; on a common name the new value wins. -/
def withFields (c : Context) (fields : Fields) : Context :=
  { c with fields := c.fields.merge fields }

def render (c : Context) : String := c.fields.render

def describe (c : Context) : String :=
  "TestContext \x7b test: " ++ Text.Quoted.quote c.handle.name ++ ", fields: " ++ c.fields.describe
    ++ ", log_level: " ++ c.level.title ++ ", backend: " ++ c.backend.name ++ " \x7d"

def callSiteLine : String :=
  " file_line=" ++ Handle.callSiteText ++ " func=" ++ Handle.functionText

def logCallSite (c : Context) (w : World) : World :=
  match c.backend with
  | .native => c.handle.log callSiteLine w
  | .standalone => w.note .callSite

def emit (c : Context) (level : Level) (message : String) (w : World) : World :=
  match c.backend with
  | .native => c.handle.log message (c.handle.log c.render w)
  | .standalone => w.note (.record level c.fields.toJson message false)

/-- The message without filter or call site. -/
def log (c : Context) (message : String) (w : World) : World := c.emit .info message w

def info (c : Context) (message : String) (w : World) : World :=
  if Level.info.enabledAt c.level then c.emit .info message w else w

/-- A record at a level other than info, behind the line of its call site. -/
def logAt (c : Context) (level : Level) (message : String) (w : World) : World :=
  if level.enabledAt c.level then c.emit level message (c.logCallSite w) else w

/-- Ends the test, or the process of a context without one. -/
def raise (c : Context) (message : String) (w : World) : Halt × World :=
  match c.backend with
  | .native => c.handle.fatal message (c.handle.log c.render w)
  | .standalone => (.exit 1, w.note (.record .error c.fields.toJson message true))

/-- Dispatches the failure event and goes on. -/
def violate (w : World) (go : World → Halt × World) : Halt × World :=
  match w.dispatch failEvent with
  | .error halt => (halt, w)
  | .ok w => go w

def fatal (c : Context) (message : String) (w : World) : Halt × World :=
  violate w fun w => c.raise message (c.logCallSite w)

/-- What a check leaves: the world, and the halt of a violated one. -/
abbrev Checked := Option Halt × World

def violated (h : Halt × World) : Checked := (some h.1, h.2)

def mustBeTrue (c : Context) (value : Bool) (w : World) : Checked :=
  if value then (none, w)
  else violated (violate w fun w =>
    match c.backend with
    | .standalone => c.raise "must_be_true validation failure" (c.logCallSite w)
    | .native => c.handle.failAssertion Handle.untrue c.render w)

def validationFailure (c : Context) (error check : String) (w : World) : Halt × World :=
  violate w fun w =>
    match c.backend with
    | .standalone =>
      (c.withFields (Fields.empty.insert "error" (.text error))).raise
        (check ++ " validation failure") (c.logCallSite w)
    | .native =>
      c.handle.failAssertion ("Received unexpected error:\n\t\t" ++ error) c.render w

/-- The value of a success; the message of an error violates the check. -/
def mustBeOk {α : Type} (c : Context) (result : Except String α) (w : World) :
    Except Halt α × World :=
  match result with
  | .ok a => (.ok a, w)
  | .error error =>
    let (halt, w) := c.validationFailure error "must_be_ok" w
    (.error halt, w)

def mustBeNone (c : Context) (error : Option String) (w : World) : Checked :=
  match error with
  | none => (none, w)
  | some error => violated (c.validationFailure error "must_be_none" w)

/-- Ends the test when the flag is set; this is no failure of its own and dispatches nothing. -/
def abortIfTripped (c : Context) (flag : Nat) (w : World) : Checked :=
  if w.signals.tripped flag then
    violated (c.raise "aborted: another test reported a failure" (c.logCallSite w))
  else (none, w)

def requireTrue (c : Context) (value : Bool) (message : String) (w : World) : Checked :=
  if value then (none, w) else violated (c.handle.failAssertion Handle.untrue message w)

end Context
end NodeHarness
