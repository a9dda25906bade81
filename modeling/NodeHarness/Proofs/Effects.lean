import NodeHarness.Script
import NodeHarness.Proofs.History

/-! What steps do to the journal and to the history. Only a violated check and a dispatch that
the script asks for dispatch anything. Every step adds the fatal stop it halts with to the journal
and nothing else, and only a recorder halts with one, under its own name. -/
namespace NodeHarness

open World

def Halt.stop? : Halt → Option FatalStop
  | .fatal test message => some ⟨test, message⟩
  | _ => none

def stopsOf (halt : Option Halt) : List FatalStop := (halt.bind Halt.stop?).toList

def Done.halt (done : Done) : Option Halt :=
  match done.answer with
  | .ok _ => none
  | .error halt => some halt

/-- What a step on a handle does to the fatal stops of the journal. -/
structure Journaled (h : Handle) (before : World) (halt : Option Halt) (after : World) : Prop where
  fatals : after.journal.fatals = before.journal.fatals ++ stopsOf halt
  raiser : ∀ test message, halt = some (.fatal test message) → h = .recorder test

/-- What a step on a handle does when it dispatches nothing. -/
structure Calm (h : Handle) (before : World) (halt : Option Halt) (after : World) : Prop
    extends Journaled h before halt after where
  quiet : Quiet before after

variable {h : Handle} {first middle last : World} {halt : Option Halt}

theorem Journaled.of_eq (same : last.journal.fatals = first.journal.fatals) :
    Journaled h first none last :=
  ⟨by simp [stopsOf, same], fun _ _ impossible => by cases impossible⟩

theorem Journaled.behind (same : middle.journal.fatals = first.journal.fatals)
    (step : Journaled h middle halt last) : Journaled h first halt last :=
  ⟨same ▸ step.fatals, step.raiser⟩

theorem Calm.kept (before : Calm h first none middle) :
    middle.journal.fatals = first.journal.fatals := by
  simpa [stopsOf] using before.fatals

theorem Calm.trans (before : Calm h first none middle) (behind : Calm h middle halt last) :
    Calm h first halt last :=
  ⟨behind.toJournaled.behind before.kept, before.quiet.trans behind.quiet⟩

theorem Calm.of_eq (fatals : last.journal.fatals = first.journal.fatals)
    (history : last.history = first.history) : Calm h first none last :=
  ⟨.of_eq fatals, .of_eq history⟩

theorem Calm.note (h : Handle) (w : World) (n : Note) : Calm h w none (w.note n) :=
  ⟨.of_eq rfl, .cons rfl rfl⟩

/-- A halt without a fatal stop. -/
theorem Calm.halts (step : Calm h first none last) {given : Halt} (free : given.stop? = none) :
    Calm h first (some given) last := by
  refine ⟨⟨?_, ?_⟩, step.quiet⟩
  · rw [step.kept, stopsOf, Option.bind_some, free, Option.toList_none, List.append_nil]
  · intro test message same
    cases same
    cases free

namespace World

theorem dispatch_fatals {w after : World} {event : String} (ran : w.dispatch event = .ok after) :
    after.journal.fatals = w.journal.fatals := by
  unfold dispatch at ran
  split at ran
  · cases ran
  · cases ran
    rfl

theorem dispatch_error {w : World} {event : String} {halt : Halt}
    (failed : w.dispatch event = .error halt) : halt = .endless := by
  unfold dispatch at failed
  split at failed
  · cases failed
    rfl
  · cases failed

end World

namespace Handle

theorem log_calm (h : Handle) (line : String) (w : World) : Calm h w none (h.log line w) := by
  cases h with
  | recorder name => exact ⟨.of_eq rfl, .cons rfl rfl⟩
  | printer name place => exact .note _ w _

theorem fatal_calm (h : Handle) (message : String) (w : World) :
    Calm h w (some (h.fatal message w).1) (h.fatal message w).2 := by
  cases h with
  | recorder name =>
    refine ⟨⟨rfl, ?_⟩, .cons rfl rfl⟩
    intro test text same
    cases same
    rfl
  | printer name place =>
    have marked : Calm (.printer name place) w none ((printer name place).fatal message w).2 :=
      ⟨.of_eq rfl, .cons rfl rfl⟩
    exact marked.halts rfl

theorem parallel_calm (h : Handle) (w : World) : Calm h w none (h.parallel w) := by
  cases h <;> exact .of_eq rfl rfl

theorem child_calm (h : Handle) (sub : String) (w : World) :
    Calm h w none (h.child sub w).2 := by
  cases h <;> exact .of_eq rfl rfl

theorem conclude_calm (parent sub : Handle) (before : Nat) (halted : Bool) (w : World) :
    Calm parent w none (parent.conclude sub before halted w).2 := by
  cases sub with
  | recorder name => exact .of_eq rfl rfl
  | printer name place =>
    simp only [conclude]
    split
    · exact .note _ w _
    · cases parent with
      | recorder above => exact .note _ w _
      | printer above flags =>
        have failed : Calm (.printer above flags) w none (w.setFailed flags) := .of_eq rfl rfl
        exact failed.trans (.note _ _ _)

end Handle

namespace Context

variable (c : Context) (message : String) (w : World)

/-- A native context on a recorder. -/
structure Recorded : Prop where
  native : c.backend = .native
  recorder : ∃ name, c.handle = .recorder name

/-- What ends a test without an event; on a recorder it leaves a fatal stop. -/
structure Stopping (r : Halt × World) : Prop extends Calm c.handle w (some r.1) r.2 where
  stop : c.Recorded → r.1.stop?.isSome = true

theorem logCallSite_calm : Calm c.handle w none (c.logCallSite w) := by
  unfold logCallSite
  split
  · exact Handle.log_calm _ _ _
  · exact .note _ _ _

theorem emit_calm (level : Level) : Calm c.handle w none (c.emit level message w) := by
  unfold emit
  split
  · exact (Handle.log_calm _ _ _).trans (Handle.log_calm _ _ _)
  · exact .note _ _ _

/-- What saying something comes to: nothing, or a message, with its call site or without. -/
inductive Speaks : (World → World) → Prop
  | silent : Speaks fun w => w
  | emits {level : Level} {message : String} : Speaks (c.emit level message)
  | emitsAtCallSite {level : Level} {message : String} :
    Speaks fun w => c.emit level message (c.logCallSite w)

theorem Speaks.calm {say : World → World} (speaks : c.Speaks say) :
    Calm c.handle w none (say w) := by
  cases speaks with
  | silent => exact .of_eq rfl rfl
  | emits => exact emit_calm c _ w _
  | emitsAtCallSite => exact (logCallSite_calm c w).trans (emit_calm c _ _ _)

theorem raise_stopping : Stopping c w (c.raise message w) := by
  unfold raise
  split
  · refine ⟨(Handle.log_calm _ _ _).trans (Handle.fatal_calm _ _ _), ?_⟩
    rintro ⟨_, name, recorder⟩
    rw [recorder]
    rfl
  · rename_i standalone
    refine ⟨(Calm.note _ _ _).halts rfl, ?_⟩
    rintro ⟨native, _⟩
    rw [native] at standalone
    cases standalone

theorem raiseAtCallSite_stopping : Stopping c w (c.raise message (c.logCallSite w)) :=
  have raised := raise_stopping c message (c.logCallSite w)
  ⟨(logCallSite_calm c w).trans raised.toCalm, raised.stop⟩

theorem failAssertion_stopping (failure detail : String) :
    Stopping c w (c.handle.failAssertion failure detail w) := by
  refine ⟨Handle.fatal_calm _ _ _, ?_⟩
  rintro ⟨_, name, recorder⟩
  rw [recorder]
  rfl

/-- The failure event came first, and then the test was ended. -/
structure Announces (r : Halt × World) : Prop extends Journaled c.handle w (some r.1) r.2 where
  announced : Announced failEvent w r.2
  stop : c.Recorded → r.1.stop?.isSome = true

/-- What a violated check does, if the failure event comes back; else it does nothing. -/
def Failed (r : Halt × World) : Prop := (r.1 = .endless ∧ r.2 = w) ∨ Announces c w r

theorem Failed.journaled {r : Halt × World} (failed : Failed c w r) :
    Journaled c.handle w (some r.1) r.2 := by
  rcases failed with ⟨endless, same⟩ | announces
  · rw [endless, same]
    exact (Calm.of_eq rfl rfl).halts rfl |>.toJournaled
  · exact announces.toJournaled

/-- What a violated check does in the end: a context raises its message, with fields of its own or
more, or a native one fails an assertion on its handle. -/
inductive GivesUp : (World → Halt × World) → Prop
  | raises {message : String} : GivesUp fun w => c.raise message (c.logCallSite w)
  | raisesWith {fields : Fields} {message : String} :
    GivesUp fun w => (c.withFields fields).raise message (c.logCallSite w)
  | asserts {failure detail : String} : c.backend = .native →
    GivesUp (c.handle.failAssertion failure detail)

theorem GivesUp.stopping {go : World → Halt × World} (gives : c.GivesUp go) :
    Stopping c w (go w) := by
  cases gives with
  | raises => exact raiseAtCallSite_stopping c _ w
  | @raisesWith fields message =>
    -- the fields do not matter to the handle or the backend
    have raised := raise_stopping (c.withFields fields) message (c.logCallSite w)
    exact ⟨(logCallSite_calm c w).trans raised.toCalm,
      fun recorded => raised.stop ⟨recorded.native, recorded.recorder⟩⟩
  | asserts => exact failAssertion_stopping c w _ _

theorem violate_failed {go : World → Halt × World} (gives : c.GivesUp go) :
    Failed c w (violate w go) := by
  unfold violate
  cases ran : w.dispatch failEvent with
  | error halt => exact .inl ⟨dispatch_error ran, rfl⟩
  | ok after =>
    have stopping := gives.stopping c after
    exact .inr ⟨stopping.toJournaled.behind (dispatch_fatals ran),
      (dispatch_announces ran).quiet stopping.quiet, stopping.stop⟩

theorem validationFailure_violate (error check : String) :
    ∃ go, c.GivesUp go ∧ ∀ w, c.validationFailure error check w = violate w go := by
  simp only [validationFailure]
  cases backend : c.backend with
  | native => exact ⟨_, .asserts backend, fun w => rfl⟩
  | standalone => exact ⟨_, .raisesWith, fun w => rfl⟩

end Context

namespace Operation

/-- The checks that fail whatever the world is like. -/
def violates : Operation → Bool
  | .fatal _ => true
  | .mustBeTrue value => !value
  | .mustBeOk (.error _) => true
  | .mustBeNone (some _) => true
  | _ => false

def isCall : Operation → Bool
  | .dispatch _ => true
  | _ => false

variable (operation : Operation) (c : Context) (scope : Scope) (stage : Stage)

/-- A violated check dispatches the failure event and then gives up. What it then does depends on
nothing but its context. -/
theorem exec_violated (violated : operation.violates = true) :
    ∃ go, c.GivesUp go ∧ ∀ scope stage, operation.exec c scope stage =
      checked scope stage (Context.violated (Context.violate stage.world go)) := by
  cases operation with
  | fatal message => exact ⟨_, .raises, fun _ _ => rfl⟩
  | mustBeTrue value =>
    cases value with
    | true => cases violated
    | false =>
      simp only [exec, Context.mustBeTrue]
      cases backend : c.backend with
      | native => exact ⟨_, .asserts backend, fun _ _ => rfl⟩
      | standalone => exact ⟨_, .raises, fun _ _ => rfl⟩
  | mustBeOk result =>
    cases result with
    | ok value => cases violated
    | error error =>
      obtain ⟨go, gives, same⟩ := c.validationFailure_violate error "must_be_ok"
      refine ⟨go, gives, fun _ stage => ?_⟩
      simp only [exec, Context.mustBeOk, same]
      rfl
  | mustBeNone error =>
    cases error with
    | none => cases violated
    | some error =>
      obtain ⟨go, gives, same⟩ := c.validationFailure_violate error "must_be_none"
      refine ⟨go, gives, fun _ stage => ?_⟩
      simp only [exec, Context.mustBeNone, same]
  | _ => cases violated

theorem exec_failed (violated : operation.violates = true) :
    ∃ r : Halt × World, Context.Failed c stage.world r ∧
      (operation.exec c scope stage).halt = some r.1 ∧
      (operation.exec c scope stage).stage.world = r.2 := by
  obtain ⟨go, gives, same⟩ := operation.exec_violated c violated
  rw [same]
  exact ⟨_, Context.violate_failed c _ gives, rfl, rfl⟩

theorem sayAs_speaks (voice : Voice) (message : String) : c.Speaks (sayAs c voice message) := by
  cases voice with
  | plain => exact .emits
  | info =>
    change c.Speaks fun w => if Level.info.enabledAt c.level then c.emit .info message w else w
    split
    · exact .emits
    · exact .silent
  | «at» level =>
    change c.Speaks fun w =>
      if level.enabledAt c.level then c.emit level message (c.logCallSite w) else w
    split
    · exact .emitsAtCallSite
    · exact .silent

/-- Every step but a violated check and a dispatch of the script's own is calm. -/
theorem exec_calm (satisfied : operation.violates = false) (uncalled : operation.isCall = false) :
    Calm c.handle stage.world (operation.exec c scope stage).halt
      (operation.exec c scope stage).stage.world := by
  cases operation with
  | say voice message => exact (sayAs_speaks c voice message).calm c _
  | fatal message => cases satisfied
  | mustBeTrue value =>
    cases value with
    | true => exact .of_eq rfl rfl
    | false => cases satisfied
  | mustBeOk result =>
    cases result with
    | ok value => exact .of_eq rfl rfl
    | error error => cases satisfied
  | mustBeNone error =>
    cases error with
    | none => exact .of_eq rfl rfl
    | some error => cases satisfied
  | parallel => exact Handle.parallel_calm _ _
  | dispatch event => cases uncalled
  | abortIfTripped flag =>
    simp only [exec, Context.abortIfTripped]
    split
    · exact (Context.raiseAtCallSite_stopping c _ _).toCalm
    · exact .of_eq rfl rfl
  | requireTrue value message =>
    simp only [exec, Context.requireTrue]
    split
    · exact .of_eq rfl rfl
    · exact Handle.fatal_calm _ _ _
  | failAssertion failure detail => exact Handle.fatal_calm _ _ _
  | panic text => exact Calm.halts (.of_eq rfl rfl) rfl
  | _ => exact .of_eq rfl rfl

/-- A dispatch that does not come back does nothing; one that does leaves the journal alone. -/
theorem exec_called (event : String) :
    (((Operation.dispatch event).exec c scope stage).halt = some .endless ∧
      ((Operation.dispatch event).exec c scope stage).stage.world = stage.world) ∨
    (Announced event stage.world ((Operation.dispatch event).exec c scope stage).stage.world ∧
      Journaled c.handle stage.world ((Operation.dispatch event).exec c scope stage).halt
        ((Operation.dispatch event).exec c scope stage).stage.world) := by
  simp only [exec]
  cases ran : stage.world.dispatch event with
  | error halt =>
    rw [dispatch_error ran]
    exact .inl ⟨rfl, rfl⟩
  | ok after => exact .inr ⟨dispatch_announces ran, .of_eq (dispatch_fatals ran)⟩

theorem exec_journaled :
    Journaled c.handle stage.world (operation.exec c scope stage).halt
      (operation.exec c scope stage).stage.world := by
  cases violated : operation.violates with
  | true =>
    obtain ⟨r, failed, halted, same⟩ := operation.exec_failed c scope stage violated
    rw [halted, same]
    exact failed.journaled
  | false =>
    cases operation with
    | dispatch event =>
      rcases exec_called c scope stage event with ⟨endless, same⟩ | ⟨_, journaled⟩
      · rw [endless, same]
        exact (Calm.halts (.of_eq rfl rfl) rfl).toJournaled
      · exact journaled
    | _ => exact (exec_calm _ c scope stage violated rfl).toJournaled

end Operation

section Plays

variable (on : String) (operation : Operation) (scope : Scope) (stage : Stage)

theorem playLeaf_halt :
    (playLeaf on operation scope stage).halt =
      (operation.exec (scope.context on) scope stage).halt := by
  cases answered : (operation.exec (scope.context on) scope stage).answer <;>
    simp only [playLeaf, Done.halt, answered]

theorem playLeaf_journaled :
    Journaled (scope.context on).handle stage.world (playLeaf on operation scope stage).halt
      (playLeaf on operation scope stage).stage.world := by
  rw [playLeaf_halt]
  have step := operation.exec_journaled (scope.context on) scope stage
  exact ⟨step.fatals, step.raiser⟩

theorem playLeaf_failed (violated : operation.violates = true) :
    ∃ r : Halt × World, Context.Failed (scope.context on) stage.world r ∧
      (playLeaf on operation scope stage).halt = some r.1 ∧
      (playLeaf on operation scope stage).stage.world.history = r.2.history := by
  obtain ⟨r, failed, halted, same⟩ :=
    operation.exec_failed (scope.context on) scope stage violated
  refine ⟨r, failed, (playLeaf_halt on operation scope stage).trans halted, ?_⟩
  rw [← same]
  rfl

theorem playLeaf_quiet (satisfied : operation.violates = false)
    (uncalled : operation.isCall = false) :
    Quiet stage.world (playLeaf on operation scope stage).stage.world :=
  (operation.exec_calm (scope.context on) scope stage satisfied uncalled).quiet.trans (.of_eq rfl)

theorem playLeaf_grown :
    stage.world.history <:+ (playLeaf on operation scope stage).stage.world.history := by
  cases violated : operation.violates with
  | true =>
    obtain ⟨r, failed, _, same⟩ := playLeaf_failed on operation scope stage violated
    rw [same]
    rcases failed with ⟨_, unchanged⟩ | announces
    · have kept := congrArg World.history unchanged
      exact ⟨[], kept.symm⟩
    · exact announces.announced.grown
  | false =>
    cases operation with
    | dispatch event =>
      rcases Operation.exec_called (scope.context on) scope stage event with
        ⟨_, unchanged⟩ | ⟨announced, _⟩
      · have kept := congrArg World.history unchanged
        exact ⟨[], kept.symm⟩
      · exact announced.grown
    | _ => exact (playLeaf_quiet on _ scope stage violated rfl).grown

theorem openRun_calm (sub : String) :
    Calm (scope.context on).handle stage.world none (openRun on sub scope stage).stage.world :=
  Handle.child_calm _ _ _

theorem closeRun_calm (parent sub : Handle) (before : Nat) (body : Played) :
    Calm parent body.stage.world none (closeRun parent sub before scope body).stage.world := by
  unfold closeRun
  split
  · split
    · exact (Handle.conclude_calm _ _ _ _ _).trans ⟨.of_eq rfl, .cons rfl rfl⟩
    · exact .of_eq rfl rfl
  · exact (Handle.conclude_calm _ _ _ _ _).trans ⟨.of_eq rfl, .cons rfl rfl⟩

end Plays
end NodeHarness
