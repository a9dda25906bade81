import NodeHarness.Proofs.Effects

/-! A log before a play. Lines that a journal has kept, and what was done before, are found by no
step: a step that is played behind them does what it does without them, and adds its own behind
theirs. All that can be told from its answers are lines and their count. -/
namespace NodeHarness

/-- Lines of a journal, and happenings. -/
structure Log where
  lines : List (String × String)
  history : List Happening

namespace World

/-- The world with a log before its own. -/
def onto (w : World) (e : Log) : World :=
  { w with
    journal := { w.journal with lines := e.lines ++ w.journal.lines }
    history := w.history ++ e.history }

def log (w : World) : Log := ⟨w.journal.lines, w.history⟩

def bare (w : World) : World :=
  { w with journal := { w.journal with lines := [] }, history := [] }

theorem bare_onto (w : World) : w.bare.onto w.log = w := by
  simp [bare, log, onto]

end World

/-- Puts a log before the one of the world that is given back. -/
def framed {α : Type} (e : Log) (p : α × World) : α × World := (p.1, p.2.onto e)

section Frame

variable (e : Log) (w : World) (h : Handle) (c : Context)

theorem log_onto (line : String) : h.log line (w.onto e) = (h.log line w).onto e := by
  cases h with
  | recorder name => simp [Handle.log, World.onto]
  | printer name place => rfl

theorem fatal_onto (message : String) :
    h.fatal message (w.onto e) = framed e (h.fatal message w) := by
  cases h <;> rfl

theorem parallel_onto : h.parallel (w.onto e) = (h.parallel w).onto e := by
  cases h <;> rfl

theorem dispatch_onto (event : String) :
    (w.onto e).dispatch event = (w.dispatch event).map fun w => w.onto e := by
  have called : (w.onto e).signals.dispatch (w.onto e).patience event =
      w.signals.dispatch w.patience event := rfl
  rw [World.dispatch, World.dispatch, called]
  cases w.signals.dispatch w.patience event with
  | none => rfl
  | some d => simp [Except.map, World.onto]

theorem child_onto (sub : String) : h.child sub (w.onto e) = framed e (h.child sub w) := by
  cases h <;> rfl

theorem conclude_onto (sub : Handle) (before : Nat) (halted : Bool) :
    h.conclude sub before halted (w.onto e) = framed e (h.conclude sub before halted w) := by
  cases sub with
  | recorder name => rfl
  | printer name place =>
    have flags : (w.onto e).printerFlags place = w.printerFlags place := rfl
    simp only [Handle.conclude, flags]
    cases !halted && !(w.printerFlags place).failed with
    | true => rfl
    | false => cases h <;> rfl

theorem logCallSite_onto : c.logCallSite (w.onto e) = (c.logCallSite w).onto e := by
  rw [Context.logCallSite, Context.logCallSite]
  cases c.backend with
  | native => exact log_onto e w c.handle _
  | standalone => rfl

theorem emit_onto (level : Level) (message : String) :
    c.emit level message (w.onto e) = (c.emit level message w).onto e := by
  rw [Context.emit, Context.emit]
  cases c.backend with
  | native => simp only [log_onto]
  | standalone => rfl

theorem speaks_onto {say : World → World} (speaks : c.Speaks say) :
    say (w.onto e) = (say w).onto e := by
  cases speaks with
  | silent => rfl
  | emits => exact emit_onto e w c _ _
  | emitsAtCallSite =>
    dsimp only
    rw [logCallSite_onto, emit_onto]

theorem raise_onto (message : String) :
    c.raise message (w.onto e) = framed e (c.raise message w) := by
  rw [Context.raise, Context.raise]
  cases c.backend with
  | native => simp only [log_onto, fatal_onto]
  | standalone => rfl

theorem givesUp_onto {go : World → Halt × World} (gives : c.GivesUp go) :
    go (w.onto e) = framed e (go w) := by
  cases gives with
  | raises =>
    dsimp only
    rw [logCallSite_onto]
    exact raise_onto e _ _ _
  | raisesWith =>
    dsimp only
    rw [logCallSite_onto]
    exact raise_onto e _ _ _
  | asserts => exact fatal_onto e w c.handle _

theorem violate_onto {go : World → Halt × World} (gives : c.GivesUp go) :
    Context.violate (w.onto e) go = framed e (Context.violate w go) := by
  rw [Context.violate, Context.violate, dispatch_onto]
  cases w.dispatch failEvent with
  | error halt => rfl
  | ok heard => exact givesUp_onto e heard c gives

theorem abortIfTripped_onto (flag : Nat) :
    c.abortIfTripped flag (w.onto e) = framed e (c.abortIfTripped flag w) := by
  have tripped : (w.onto e).signals.tripped flag = w.signals.tripped flag := rfl
  rw [Context.abortIfTripped, Context.abortIfTripped, tripped, logCallSite_onto, raise_onto]
  split <;> rfl

theorem requireTrue_onto (value : Bool) (message : String) :
    c.requireTrue value message (w.onto e) = framed e (c.requireTrue value message w) := by
  rw [Context.requireTrue, Context.requireTrue]
  cases value with
  | true => rfl
  | false => exact congrArg Context.violated (fatal_onto e w c.handle _)

end Frame

/-- Without a count of lines. -/
def Facts.silenced : Facts → Facts
  | .recorded parallelCalls fatals _ => .recorded parallelCalls fatals 0
  | .printed failed parallel => .printed failed parallel

/-- Without lines, and without a count of them. -/
def Answer.silenced : Answer → Answer
  | .lines kept => .lines (kept.map fun _ => [])
  | .inspection c facts => .inspection c facts.silenced
  | answer => answer

/-- What is seen of a step, without what it tells of all lines. -/
def Trace.silenced : Trace → Trace
  | .leaf notes answer lines => .leaf notes (answer.map Answer.silenced) lines
  | .run entered _ notes verdict =>
    .run entered [] notes (verdict.map fun (passed, facts) => (passed, facts.silenced))

theorem facts_onto (e : Log) (w : World) (h : Handle) :
    (h.facts (w.onto e)).silenced = (h.facts w).silenced := by
  cases h <;> rfl

namespace Stage

def onto (s : Stage) (e : Log) : Stage := s.withWorld (s.world.onto e)

def bare (s : Stage) : Stage := s.withWorld s.world.bare

theorem bare_onto (s : Stage) : s.bare.onto s.world.log = s := by
  obtain ⟨w, names⟩ := s
  exact congrArg (Stage.mk · names) w.bare_onto

end Stage

/-- An operation was executed behind a log, and all it lets be told of it are lines. -/
structure Done.Framed (e : Log) (p q : Done) : Prop where
  scope : q.scope = p.scope
  stage : q.stage = p.stage.onto e
  answer : q.answer.map Answer.silenced = p.answer.map Answer.silenced

section Executing

variable (e : Log) (c : Context) (scope : Scope) (stage : Stage)

theorem checked_onto {checked framedBy : Context.Checked} (same : framedBy = framed e checked) :
    (Operation.checked scope stage checked).Framed e
      (Operation.checked scope (stage.onto e) framedBy) := by
  subst same
  exact ⟨rfl, rfl, rfl⟩

/-- An operation finds nothing in a log that is there before it, and adds its own behind it. -/
theorem exec_onto (operation : Operation) :
    (operation.exec c scope stage).Framed e (operation.exec c scope (stage.onto e)) := by
  obtain ⟨w, names⟩ := stage
  have refused (violated : operation.violates = true) :
      (operation.exec c scope ⟨w, names⟩).Framed e
        (operation.exec c scope (Stage.onto ⟨w, names⟩ e)) := by
    obtain ⟨go, gives, same⟩ := operation.exec_violated c violated
    rw [same, same]
    exact checked_onto e scope _ (congrArg Context.violated (violate_onto e w c gives))
  cases operation with
  | say voice message =>
    have said := speaks_onto e w c (Operation.sayAs_speaks c voice message)
    exact ⟨rfl, congrArg (Stage.mk · names) said, rfl⟩
  | fatal message => exact refused rfl
  | mustBeTrue value =>
    cases value with
    | true => exact ⟨rfl, rfl, rfl⟩
    | false => exact refused rfl
  | mustBeOk result =>
    cases result with
    | ok value => exact ⟨rfl, rfl, rfl⟩
    | error error => exact refused rfl
  | mustBeNone error =>
    cases error with
    | none => exact ⟨rfl, rfl, rfl⟩
    | some error => exact refused rfl
  | parallel => exact ⟨rfl, congrArg (Stage.mk · names) (parallel_onto e w c.handle), rfl⟩
  | dispatch event =>
    simp only [Operation.exec, Stage.onto, Stage.withWorld, dispatch_onto]
    cases w.dispatch event with
    | error halt => exact ⟨rfl, rfl, rfl⟩
    | ok heard => exact ⟨rfl, rfl, rfl⟩
  | abortIfTripped flag => exact checked_onto e scope _ (abortIfTripped_onto e w c _)
  | inspect =>
    exact ⟨rfl, rfl, congrArg (fun facts => Except.ok (Answer.inspection c facts))
      (facts_onto e w c.handle)⟩
  | linesFor test =>
    refine ⟨rfl, rfl, congrArg (fun kept => Except.ok (Answer.lines kept)) ?_⟩
    simp only [Operation.linesOf]
    cases c.handle <;> rfl
  | requireTrue value message => exact checked_onto e scope _ (requireTrue_onto e w c value message)
  | failAssertion failure detail =>
    have same : Context.violated (c.handle.failAssertion failure detail (w.onto e)) =
        framed e (Context.violated (c.handle.failAssertion failure detail w)) :=
      congrArg Context.violated (fatal_onto e w c.handle _)
    exact checked_onto e scope _ same
  | _ => exact ⟨rfl, rfl, rfl⟩

end Executing

/-- Two steps on one scope, of which the second was played behind a log and tells more lines. -/
structure Played.Framed (e : Log) (p q : Played) : Prop where
  scope : q.scope = p.scope
  halt : q.halt = p.halt
  stage : q.stage = p.stage.onto e
  seen : q.traces.map Trace.silenced = p.traces.map Trace.silenced

theorem Done.Framed.halt {e : Log} {p q : Done} (framed : p.Framed e q) : q.halt = p.halt := by
  have same := framed.answer
  unfold Done.halt
  cases here : p.answer <;> cases there : q.answer <;> simp [here, there, Except.map] at same ⊢
  exact same

theorem playLeaf_onto (e : Log) (on : String) (operation : Operation) (scope : Scope)
    (stage : Stage) :
    (playLeaf on operation scope stage).Framed e (playLeaf on operation scope (stage.onto e)) := by
  have done := exec_onto e (scope.context on) scope stage operation
  have lines (later : Stage) : (later.onto e).world.journal.lines.drop
      (stage.onto e).world.journal.lines.length =
        later.world.journal.lines.drop stage.world.journal.lines.length := by
    simp [Stage.onto, Stage.withWorld, World.onto, List.drop_append]
  refine ⟨done.scope, ?_, ?_, ?_⟩
  · rw [playLeaf_halt, playLeaf_halt, done.halt]
  · simp only [playLeaf, done.stage]
    rfl
  · simp only [playLeaf, List.map_cons, List.map_nil, Trace.silenced, done.answer, done.stage,
      lines]
    rfl

theorem openRun_onto (e : Log) (on sub : String) (scope : Scope) (stage : Stage) :
    (openRun on sub scope (stage.onto e)).handle = (openRun on sub scope stage).handle ∧
      (openRun on sub scope (stage.onto e)).stage = (openRun on sub scope stage).stage.onto e := by
  simp only [openRun, Stage.onto, Stage.withWorld, child_onto]
  exact ⟨rfl, rfl⟩

/-- How a sub-test is closed that gives a verdict. -/
def verdictGiven (parent sub : Handle) (before : Nat) (scope : Scope) (halted : Bool)
    (body : Played) : Played :=
  let given := parent.conclude sub before halted body.stage.world
  let w := given.2.returned parent sub given.1
  ⟨[.run sub.name body.traces w.taken (some (given.1, parent.facts w))], scope,
    (body.stage.withWorld w).clearNotes, none⟩

section Closing

variable (parent sub : Handle) (before : Nat) (scope : Scope)

theorem closeRun_none {body : Played} (ended : body.halt = none) :
    closeRun parent sub before scope body = verdictGiven parent sub before scope false body := by
  rw [closeRun, ended]
  simp only [Handle.dropPanic_silent sub (by decide : Origin.subTest ≠ .root)]
  rfl

theorem closeRun_some {body : Played} {halt : Halt} (ended : body.halt = some halt) :
    closeRun parent sub before scope body =
      if halt.caught then verdictGiven parent sub before scope true body
      else ⟨[.run sub.name body.traces [] none], scope, body.stage, some halt⟩ := by
  rw [closeRun, ended]
  rfl

theorem closeRun_taken {body : Played} (taken : body.stage.world.notes = []) :
    (closeRun parent sub before scope body).stage.world.notes = [] := by
  cases ended : body.halt with
  | none =>
    rw [closeRun_none parent sub before scope ended]
    rfl
  | some halt =>
    rw [closeRun_some parent sub before scope ended]
    split
    · rfl
    · exact taken

variable {e : Log} {p q : Played}

theorem verdictGiven_onto (stage : q.stage = p.stage.onto e) (halted : Bool) :
    (verdictGiven parent sub before scope halted p).Framed e
      (verdictGiven parent sub before scope halted q) := by
  have given : parent.conclude sub before halted q.stage.world =
      framed e (parent.conclude sub before halted p.stage.world) := by
    rw [stage]
    exact conclude_onto e p.stage.world parent sub before halted
  have told := facts_onto e ((parent.conclude sub before halted p.stage.world).2.returned parent sub
    (parent.conclude sub before halted p.stage.world).1) parent
  unfold verdictGiven
  rw [given, stage]
  refine ⟨rfl, rfl, rfl, ?_⟩
  exact congrArg (fun facts => [Trace.run sub.name [] _ (some (_, facts))]) told

theorem closeRun_onto (halt : q.halt = p.halt) (stage : q.stage = p.stage.onto e) :
    (closeRun parent sub before scope p).Framed e (closeRun parent sub before scope q) := by
  cases ended : p.halt with
  | none =>
    rw [closeRun_none _ _ _ _ ended, closeRun_none _ _ _ _ (halt.trans ended)]
    exact verdictGiven_onto parent sub before scope stage false
  | some stop =>
    rw [closeRun_some _ _ _ _ ended, closeRun_some _ _ _ _ (halt.trans ended)]
    split
    · exact verdictGiven_onto parent sub before scope stage true
    · exact ⟨rfl, rfl, stage, rfl⟩

end Closing
end NodeHarness
