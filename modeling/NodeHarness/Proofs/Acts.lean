import NodeHarness.Proofs.Effects

/-! What an operation does to signals and failure flags. A fatal stop is the last thing that an
operation does, and it is the only thing that sets a failure flag; everything before it leaves the
flags alone and leads the signals on by what tests and listeners can do to them. Which operations
come to a fatal stop is told by what they check and by the flag that they obey. -/
namespace NodeHarness

theorem getD_concat {α : Type} (entries : List α) (last : α) (place : Nat) :
    (entries ++ [last]).getD place last = entries.getD place last := by
  simp only [List.getD_eq_getElem?_getD]
  rcases Nat.lt_trichotomy place entries.length with inside | rfl | beyond
  · rw [List.getElem?_append_left inside]
  · simp
  · rw [List.getElem?_eq_none (by simp; omega), List.getElem?_eq_none (by omega)]

theorem getD_set {α : Type} (entries : List α) (place : Nat) (entry : α) (other : Nat)
    (fallback : α) :
    (entries.set place entry).getD other fallback =
      if other = place ∧ place < entries.length then entry else entries.getD other fallback := by
  simp only [List.getD_eq_getElem?_getD, List.getElem?_set]
  by_cases same : place = other
  · subst same
    by_cases inside : place < entries.length <;> simp [inside]
  · simp [same, Ne.symm same]

namespace Signals

/-- The signals that others become by what tests and listeners do. -/
inductive Course (s : Signals) : Signals → Prop
  | nil : Course s s
  | register {t : Signals} (event label : String) (actions : List Action) :
      Course s t → Course s (t.register event (.reporter label actions))
  | addFlag {t : Signals} : Course s t → Course s t.addFlag.1
  | install {t : Signals} : Course s t → Course s t.install.1
  | reset {t : Signals} (flag : Nat) : Course s t → Course s (t.reset flag)
  | dispatch {t : Signals} {fuel : Nat} {event : String} {d : Dispatched} :
      Course s t → t.dispatch fuel event = some d → Course s d.signals

theorem Course.trans {first middle last : Signals} (a : Course first middle)
    (b : Course middle last) : Course first last := by
  induction b with
  | nil => exact a
  | register event label actions _ ih => exact ih.register event label actions
  | addFlag _ ih => exact ih.addFlag
  | install _ ih => exact ih.install
  | reset flag _ ih => exact ih.reset flag
  | dispatch _ ran ih => exact ih.dispatch ran

end Signals

namespace Happening

def isStop : Happening → Bool
  | .stopped _ _ => true
  | _ => false

def isVerdict : Happening → Bool
  | .returned _ _ _ => true
  | _ => false

def isPlain (h : Happening) : Bool := !h.isStop && !h.isVerdict

end Happening

namespace World

def failures (w : World) : List Bool := w.printers.map PrinterFlags.failed

def failedAt (w : World) (place : Nat) : Bool := (w.printerFlags place).failed

theorem failedAt_eq (w : World) (place : Nat) :
    w.failedAt place = w.failures.getD place false := by
  simp only [failedAt, printerFlags, failures, List.getD_eq_getElem?_getD, List.getElem?_map]
  cases w.printers[place]? <;> rfl

theorem failedAt_congr {w other : World} (same : other.failures = w.failures) (place : Nat) :
    other.failedAt place = w.failedAt place := by
  rw [failedAt_eq, failedAt_eq, same]

theorem failures_setFailed (w : World) (place : Nat) :
    (w.setFailed place).failures = w.failures.set place true := by
  simp only [failures, setFailed]
  induction w.printers generalizing place with
  | nil => simp
  | cons flags rest ih => cases place <;> simp [ih]

theorem failures_setParallel (w : World) (place : Nat) :
    (w.setParallel place).failures = w.failures := by
  simp only [failures, setParallel]
  induction w.printers generalizing place with
  | nil => simp
  | cons flags rest ih => cases place <;> simp [ih]

theorem failures_addPrinter (w : World) : w.addPrinter.1.failures = w.failures ++ [false] := by
  simp [failures, addPrinter]

structure Plain (before after : World) : Prop where
  course : before.signals.Course after.signals
  failures : after.failures = before.failures
  grown : ∃ later, after.history = later ++ before.history ∧ ∀ h ∈ later, h.isPlain = true

theorem Plain.of_course {before after : World} (course : before.signals.Course after.signals)
    (failures : after.failures = before.failures) (history : after.history = before.history) :
    Plain before after :=
  ⟨course, failures, [], history, by simp⟩

theorem Plain.refl (w : World) : Plain w w := .of_course .nil rfl rfl

theorem Plain.cons {before after : World} {h : Happening} (signals : after.signals = before.signals)
    (failures : after.failures = before.failures) (history : after.history = h :: before.history)
    (plain : h.isPlain = true) : Plain before after :=
  ⟨signals ▸ .nil, failures, [h], history, by simpa using plain⟩

theorem Plain.trans {first middle last : World} (a : Plain first middle) (b : Plain middle last) :
    Plain first last := by
  obtain ⟨xs, grownA, plainA⟩ := a.grown
  obtain ⟨ys, grownB, plainB⟩ := b.grown
  refine ⟨a.course.trans b.course, b.failures.trans a.failures, ys ++ xs, ?_, ?_⟩
  · rw [grownB, grownA, List.append_assoc]
  · intro h member
    rcases List.mem_append.mp member with member | member
    · exact plainB h member
    · exact plainA h member

theorem Plain.note (w : World) (n : Note) : Plain w (w.note n) := .cons rfl rfl rfl rfl

theorem Plain.dispatch {w after : World} {event : String} (ran : w.dispatch event = .ok after) :
    Plain w after := by
  unfold World.dispatch at ran
  split at ran
  · cases ran
  · rename_i d found
    cases ran
    refine ⟨.dispatch .nil found, rfl,
      ((d.reports.map .report).reverse.map .noted) ++ [.dispatched event], by simp, ?_⟩
    intro h member
    rcases List.mem_append.mp member with heard | called
    · obtain ⟨note, _, rfl⟩ := List.mem_map.mp heard
      rfl
    · rw [List.mem_singleton.mp called]
      rfl

end World

open World

/-- Other things were done, and then a fatal stop was raised on the handle. -/
def Stopped (h : Handle) (before : World) (r : Halt × World) : Prop :=
  ∃ middle message, Plain before middle ∧ r = h.fatal message middle

/-- What is done on a handle: nothing that sets a failure flag, unless at last a fatal stop. -/
def Acts (h : Handle) (before after : World) : Prop :=
  Plain before after ∨
    ∃ middle message, Plain before middle ∧ after = (h.fatal message middle).2

theorem World.Plain.since_plain {before after : World} (plain : Plain before after) :
    ∀ e ∈ since before after, e.isPlain = true := by
  obtain ⟨later, grown, all⟩ := plain.grown
  intro e member
  rw [since_append grown, List.mem_reverse] at member
  exact all e member

/-- The stop is the last thing that was done. -/
theorem Handle.fatal_since (h : Handle) (message : String) {before middle : World}
    (plain : Plain before middle) :
    since before (h.fatal message middle).2 = since before middle ++ [.stopped h message] := by
  obtain ⟨later, grown, _⟩ := plain.grown
  have history : (h.fatal message middle).2.history =
      (.stopped h message :: later) ++ before.history := by
    cases h <;> exact congrArg (Happening.stopped _ message :: ·) grown
  rw [since_append history, since_append grown, List.reverse_cons]

theorem World.Plain.stopped {h : Handle} {first middle : World} {r : Halt × World}
    (a : Plain first middle) (b : Stopped h middle r) : Stopped h first r := by
  obtain ⟨stage, message, plain, stops⟩ := b
  exact ⟨stage, message, a.trans plain, stops⟩

namespace Handle

theorem log_plain (h : Handle) (line : String) (w : World) : Plain w (h.log line w) := by
  cases h with
  | recorder name => exact .cons rfl rfl rfl rfl
  | printer name place => exact .note w _

theorem fatal_stopped (h : Handle) (message : String) (w : World) :
    Stopped h w (h.fatal message w) := ⟨w, message, .refl w, rfl⟩

theorem fatal_returns (h : Handle) (message : String) (w : World) :
    (h.fatal message w).1 ≠ .endless := by
  cases h <;> nofun

theorem parallel_plain (h : Handle) (w : World) : Plain w (h.parallel w) := by
  cases h with
  | recorder name => exact .of_course .nil rfl rfl
  | printer name place => exact .of_course .nil (failures_setParallel w place) rfl

end Handle

namespace Context

/-- How a context ends a test: by a stop on its handle, or with the process if it has no test. -/
structure Ends (c : Context) (before : World) (r : Halt × World) : Prop where
  native : c.backend = .native → Stopped c.handle before r
  standalone : c.backend = .standalone → Plain before r.2 ∧ r.1 = .exit 1

/-- What a violated check comes to: the failure event does not come back, or the test is ended. -/
def Refuses (c : Context) (before : World) (r : Halt × World) : Prop :=
  before.signals.dispatch before.patience failEvent = none ∧ r = (.endless, before) ∨
    before.signals.dispatch before.patience failEvent ≠ none ∧ c.Ends before r

variable (c : Context) (message : String) (w : World)

theorem logCallSite_plain : Plain w (c.logCallSite w) := by
  unfold logCallSite
  split
  · exact Handle.log_plain _ _ _
  · exact .note _ _

theorem emit_plain (level : Level) : Plain w (c.emit level message w) := by
  unfold emit
  split
  · exact (Handle.log_plain _ _ _).trans (Handle.log_plain _ _ _)
  · exact .note _ _

variable {c} {w}

theorem Speaks.plain {say : World → World} (speaks : c.Speaks say) : Plain w (say w) := by
  cases speaks with
  | silent => exact .refl w
  | emits => exact emit_plain c _ w _
  | emitsAtCallSite => exact (logCallSite_plain c w).trans (emit_plain c _ _ _)

theorem Ends.behind {middle : World} {r : Halt × World} (plain : Plain w middle)
    (ends : c.Ends middle r) : c.Ends w r :=
  ⟨fun native => plain.stopped (ends.native native), fun standalone =>
    ⟨plain.trans (ends.standalone standalone).1, (ends.standalone standalone).2⟩⟩

theorem Ends.returns {r : Halt × World} (ends : c.Ends w r) : r.1 ≠ .endless := by
  cases backend : c.backend with
  | native =>
    obtain ⟨middle, text, _, rfl⟩ := ends.native backend
    exact Handle.fatal_returns _ _ _
  | standalone =>
    rw [(ends.standalone backend).2]
    nofun

theorem raise_ends : c.Ends w (c.raise message w) := by
  constructor
  · intro native
    simp only [raise, native]
    exact (Handle.log_plain _ _ _).stopped (Handle.fatal_stopped _ _ _)
  · intro standalone
    simp only [raise, standalone]
    exact ⟨.note _ _, trivial⟩

theorem raiseAtCallSite_ends : c.Ends w (c.raise message (c.logCallSite w)) :=
  (raise_ends message).behind (logCallSite_plain c w)

theorem GivesUp.ends {go : World → Halt × World} (gives : c.GivesUp go) : c.Ends w (go w) := by
  cases gives with
  | raises => exact raiseAtCallSite_ends _
  | @raisesWith fields message =>
    -- the fields of the context do not matter to its handle and its backend
    have raised : (c.withFields fields).Ends (c.logCallSite w) _ := raise_ends message
    exact .behind (logCallSite_plain c w) ⟨raised.native, raised.standalone⟩
  | asserts native =>
    refine ⟨fun _ => Handle.fatal_stopped _ _ _, fun standalone => ?_⟩
    rw [native] at standalone
    cases standalone

theorem violate_refuses {go : World → Halt × World} (gives : c.GivesUp go) :
    c.Refuses w (violate w go) := by
  cases ran : w.signals.dispatch w.patience failEvent with
  | none =>
    refine .inl ⟨ran, ?_⟩
    simp only [violate, World.dispatch, ran]
  | some d =>
    have back : ∃ after, w.dispatch failEvent = .ok after := by simp [World.dispatch, ran]
    obtain ⟨after, back⟩ := back
    refine .inr ⟨Option.some_ne_none d ∘ ran.symm.trans, ?_⟩
    simp only [violate, back]
    exact gives.ends.behind (.dispatch back)

end Context

namespace Operation

/-- The operation stops its test through the handle of its context: by a check that is violated or
a flag that is obeyed, if the context is native, or by an assertion on the handle itself. -/
inductive Stops (c : Context) (stage : Stage) : Operation → Prop
  | check {operation : Operation} : c.backend = .native → operation.violates = true →
    Stops c stage operation
  | obeys {flag : String} : c.backend = .native →
    stage.world.signals.tripped (stage.flag flag) = true → Stops c stage (.abortIfTripped flag)
  | untrue {message : String} : Stops c stage (.requireTrue false message)
  | asserts {failure detail : String} : Stops c stage (.failAssertion failure detail)

variable {operation : Operation} {c : Context} {stage : Stage}

theorem exec_refuses (scope : Scope) (violated : operation.violates = true) :
    ∃ r : Halt × World, c.Refuses stage.world r ∧ (operation.exec c scope stage).halt = some r.1 ∧
      (operation.exec c scope stage).stage.world = r.2 := by
  obtain ⟨go, gives, same⟩ := operation.exec_violated c violated
  rw [same]
  exact ⟨_, Context.violate_refuses gives, rfl, rfl⟩

/-- An operation that stops its test raises a stop on the handle as the last thing that it does. -/
theorem exec_stops (scope : Scope) (stops : operation.Stops c stage) :
    ((operation.exec c scope stage).halt = some .endless ∧
      (operation.exec c scope stage).stage.world = stage.world) ∨
    ∃ r, Stopped c.handle stage.world r ∧ (operation.exec c scope stage).halt = some r.1 ∧
      (operation.exec c scope stage).stage.world = r.2 := by
  cases stops with
  | check native violated =>
    obtain ⟨r, ⟨_, rfl⟩ | ⟨_, ends⟩, halted, same⟩ := exec_refuses scope violated
    · exact .inl ⟨halted, same⟩
    · exact .inr ⟨r, ends.native native, halted, same⟩
  | obeys native tripped =>
    simp only [exec, Context.abortIfTripped, tripped, if_true]
    exact .inr ⟨_, (Context.raiseAtCallSite_ends _).native native, rfl, rfl⟩
  | untrue => exact .inr ⟨_, Handle.fatal_stopped _ _ _, rfl, rfl⟩
  | asserts => exact .inr ⟨_, Handle.fatal_stopped _ _ _, rfl, rfl⟩

theorem exec_plain (scope : Scope) (calm : ¬ operation.Stops c stage) :
    Plain stage.world (operation.exec c scope stage).stage.world := by
  have free {action : Operation} (calm : ¬ action.Stops c stage)
      (violated : action.violates = true) : c.backend = .standalone := by
    cases backend : c.backend with
    | native => exact absurd (.check backend violated) calm
    | standalone => rfl
  cases violated : operation.violates with
  | true =>
    obtain ⟨r, ⟨_, rfl⟩ | ⟨_, ends⟩, _, same⟩ := exec_refuses scope violated
    · exact same ▸ .refl _
    · exact same ▸ (ends.standalone (free calm violated)).1
  | false =>
    cases operation with
    | say voice message => exact (sayAs_speaks c voice message).plain
    | fatal message => cases violated
    | mustBeTrue value =>
      cases value with
      | true => exact .refl _
      | false => cases violated
    | mustBeOk result =>
      cases result with
      | ok value => exact .refl _
      | error error => cases violated
    | mustBeNone error =>
      cases error with
      | none => exact .refl _
      | some error => cases violated
    | parallel => exact Handle.parallel_plain _ _
    | dispatch event =>
      simp only [exec]
      split
      · exact .dispatch ‹_›
      · exact .refl _
    | register event label actions => exact .of_course (.register event label actions .nil) rfl rfl
    | install flag => exact .of_course (.install .nil) rfl rfl
    | unwired flag => exact .of_course (.addFlag .nil) rfl rfl
    | reset flag => exact .of_course (.reset _ .nil) rfl rfl
    | abortIfTripped flag =>
      simp only [exec, Context.abortIfTripped]
      split
      · rename_i tripped
        cases backend : c.backend with
        | native => exact absurd (.obeys backend tripped) calm
        | standalone => exact ((Context.raiseAtCallSite_ends _).standalone backend).1
      · exact .refl _
    | requireTrue value message =>
      cases value with
      | true => exact .refl _
      | false => exact absurd .untrue calm
    | failAssertion failure detail => exact absurd .asserts calm
    | _ => exact .refl _

theorem exec_acts (operation : Operation) (c : Context) (scope : Scope) (stage : Stage) :
    Acts c.handle stage.world (operation.exec c scope stage).stage.world := by
  by_cases stops : operation.Stops c stage
  · rcases exec_stops scope stops with ⟨_, same⟩ | ⟨_, ⟨middle, message, plain, rfl⟩, _, same⟩
    · exact .inl (same ▸ .refl _)
    · exact .inr ⟨middle, message, plain, same⟩
  · exact .inl (exec_plain scope stops)

end Operation

namespace World

/-- What of a world decides how a dispatch goes. -/
def core (w : World) : Nat × Signals := (w.patience, w.signals)

end World

theorem Handle.log_core (h : Handle) (line : String) (w : World) :
    (h.log line w).core = w.core := by
  cases h <;> rfl

theorem Handle.fatal_core (h : Handle) (message : String) (w : World) :
    (h.fatal message w).2.core = w.core := by
  cases h <;> rfl

namespace Context

variable (c : Context) (message : String) (w : World)

theorem logCallSite_core : (c.logCallSite w).core = w.core := by
  unfold logCallSite
  split
  · exact Handle.log_core _ _ _
  · rfl

theorem emit_core (level : Level) : (c.emit level message w).core = w.core := by
  unfold emit
  split
  · exact (Handle.log_core _ _ _).trans (Handle.log_core _ _ _)
  · rfl

theorem raise_core : (c.raise message w).2.core = w.core := by
  unfold raise
  split
  · exact (Handle.fatal_core _ _ _).trans (Handle.log_core _ _ _)
  · rfl

theorem raiseAtCallSite_core : (c.raise message (c.logCallSite w)).2.core = w.core :=
  (raise_core c message _).trans (logCallSite_core c w)

end Context

namespace Signals

/-- The signals behind a dispatch; one that does not come back leaves them alone. -/
def behind (s : Signals) (patience : Nat) (event : String) : Signals :=
  match s.dispatch patience event with
  | none => s
  | some d => d.signals

end Signals

theorem Context.Speaks.core {c : Context} {say : World → World} (speaks : c.Speaks say)
    (w : World) : (say w).core = w.core := by
  cases speaks with
  | silent => rfl
  | emits => exact emit_core c _ w _
  | emitsAtCallSite => exact (emit_core c _ _ _).trans (logCallSite_core c w)

theorem Context.GivesUp.core {c : Context} {go : World → Halt × World} (gives : c.GivesUp go)
    (w : World) : (go w).2.core = w.core := by
  cases gives with
  | raises => exact raiseAtCallSite_core c _ w
  | raisesWith => exact (raise_core (c.withFields _) _ _).trans (logCallSite_core c w)
  | asserts => exact Handle.fatal_core _ _ w

theorem Context.violate_core {c : Context} {go : World → Halt × World} (gives : c.GivesUp go)
    (w : World) : (violate w go).2.core = (w.patience, w.signals.behind w.patience failEvent) := by
  unfold violate World.dispatch Signals.behind
  cases w.signals.dispatch w.patience failEvent with
  | none => rfl
  | some d => exact gives.core _

namespace Operation

/-- What an operation makes of signals. It does not depend on the context that it is done on: all
contexts have one dispatcher. -/
def signalsBehind (operation : Operation) (stage : Stage) : Signals :=
  let s := stage.world.signals
  match operation with
  | .fatal _ => s.behind stage.world.patience failEvent
  | .mustBeTrue value => if value then s else s.behind stage.world.patience failEvent
  | .mustBeOk (.error _) => s.behind stage.world.patience failEvent
  | .mustBeNone (some _) => s.behind stage.world.patience failEvent
  | .dispatch event => s.behind stage.world.patience event
  | .register event label actions => s.register event (.reporter label actions)
  | .install _ => s.install.1
  | .unwired _ => s.addFlag.1
  | .reset flag => s.reset (stage.flag flag)
  | _ => s

/-- The operations that work on signals by themselves. -/
def onSignals : Operation → Bool
  | .dispatch _ => true
  | .register _ _ _ => true
  | .install _ => true
  | .unwired _ => true
  | .reset _ => true
  | _ => false

theorem signalsBehind_violated {operation : Operation} (violated : operation.violates = true)
    (stage : Stage) :
    operation.signalsBehind stage = stage.world.signals.behind stage.world.patience failEvent := by
  cases operation with
  | fatal message => rfl
  | mustBeTrue value =>
    cases value with
    | true => cases violated
    | false => rfl
  | mustBeOk result =>
    cases result with
    | ok value => cases violated
    | error error => rfl
  | mustBeNone error =>
    cases error with
    | none => cases violated
    | some error => rfl
  | _ => cases violated

theorem signalsBehind_still {operation : Operation} (satisfied : operation.violates = false)
    (apart : operation.onSignals = false) (stage : Stage) :
    operation.signalsBehind stage = stage.world.signals := by
  cases operation with
  | mustBeTrue value =>
    cases value with
    | true => rfl
    | false => cases satisfied
  | mustBeOk result =>
    cases result with
    | ok value => rfl
    | error error => cases satisfied
  | mustBeNone error =>
    cases error with
    | none => rfl
    | some error => cases satisfied
  | fatal message => cases satisfied
  | dispatch event => cases apart
  | register event label actions => cases apart
  | install flag => cases apart
  | unwired flag => cases apart
  | reset flag => cases apart
  | _ => rfl

theorem exec_core (operation : Operation) (c : Context) (scope : Scope) (stage : Stage) :
    (operation.exec c scope stage).stage.world.core =
      (stage.world.patience, operation.signalsBehind stage) := by
  have refused (violated : operation.violates = true) :
      (operation.exec c scope stage).stage.world.core =
        (stage.world.patience, operation.signalsBehind stage) := by
    obtain ⟨go, gives, same⟩ := operation.exec_violated c violated
    rw [same, signalsBehind_violated violated]
    exact Context.violate_core gives _
  cases operation with
  | say voice message => exact (sayAs_speaks c voice message).core _
  | fatal message => exact refused rfl
  | mustBeTrue value =>
    cases value with
    | true => rfl
    | false => exact refused rfl
  | mustBeOk result =>
    cases result with
    | ok value => rfl
    | error error => exact refused rfl
  | mustBeNone error =>
    cases error with
    | none => rfl
    | some error => exact refused rfl
  | parallel =>
    change (c.handle.parallel stage.world).core = _
    cases c.handle <;> rfl
  | dispatch event =>
    simp only [exec, World.dispatch, signalsBehind, Signals.behind]
    cases stage.world.signals.dispatch stage.world.patience event <;> rfl
  | abortIfTripped flag =>
    simp only [exec, Context.abortIfTripped]
    split
    · exact Context.raiseAtCallSite_core c _ _
    · rfl
  | requireTrue value message =>
    simp only [exec, Context.requireTrue]
    split
    · rfl
    · exact Handle.fatal_core _ _ _
  | failAssertion failure detail => exact Handle.fatal_core _ _ _
  | _ => rfl

end Operation

theorem openRun_core (on sub : String) (scope : Scope) (stage : Stage) :
    (openRun on sub scope stage).stage.world.core = stage.world.core := by
  have kept (h : Handle) : (h.child sub stage.world).2.core = stage.world.core := by
    cases h <;> rfl
  exact kept (scope.context on).handle

theorem Handle.conclude_core (parent sub : Handle) (before : Nat) (halted : Bool) (w : World) :
    (parent.conclude sub before halted w).2.core = w.core := by
  cases sub with
  | recorder name => rfl
  | printer name place =>
    cases parent <;> simp only [conclude] <;> split <;> rfl

theorem closeRun_core (parent sub : Handle) (before : Nat) (scope : Scope) (body : Played) :
    (closeRun parent sub before scope body).stage.world.core = body.stage.world.core := by
  unfold closeRun
  split
  · split
    · exact Handle.conclude_core parent sub before _ _
    · rfl
  · exact Handle.conclude_core parent sub before _ _

end NodeHarness
