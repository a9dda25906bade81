import NodeHarness.Proofs.Stops

/-! The failure event. A violated check dispatches it once, ahead of everything else that the
failure does, and no other step of a context dispatches it. In a native script over a recorder
the fatal stops are therefore the failure events of violated checks and the stops that obey a
set flag. -/
namespace NodeHarness

open World

theorem stopsOf_length {halt : Halt} (stop : halt.stop?.isSome = true) :
    (stopsOf (some halt)).length = 1 := by
  obtain ⟨kept, is⟩ := Option.isSome_iff_exists.mp stop
  simp [stopsOf, is]

namespace Operation

def isAbort : Operation → Bool
  | .abortIfTripped _ => true
  | _ => false

/-- The steps that go past the context to its handle. -/
def onHandle : Operation → Bool
  | .requireTrue _ _ => true
  | .failAssertion _ _ => true
  | _ => false

variable (operation : Operation) (c : Context) (scope : Scope) (stage : Stage)

theorem exec_aborted (recorded : c.Recorded) (aborts : operation.isAbort = true) :
    (stopsOf (operation.exec c scope stage).halt).length =
      if (operation.exec c scope stage).halt.isSome then 1 else 0 := by
  cases operation with
  | abortIfTripped flag =>
    simp only [exec, Context.abortIfTripped]
    split
    · exact stopsOf_length ((Context.raiseAtCallSite_stopping c _ _).stop recorded)
    · rfl
  | _ => cases aborts

theorem exec_unstopped (satisfied : operation.violates = false)
    (passed : operation.isAbort = false) (above : operation.onHandle = false) :
    stopsOf (operation.exec c scope stage).halt = [] := by
  cases operation with
  | fatal message => cases satisfied
  | mustBeTrue value =>
    cases value with
    | true => rfl
    | false => cases satisfied
  | mustBeOk result =>
    cases result with
    | ok value => rfl
    | error error => cases satisfied
  | mustBeNone error =>
    cases error with
    | none => rfl
    | some error => cases satisfied
  | dispatch event =>
    simp only [exec]
    cases ran : stage.world.dispatch event with
    | error halt =>
      rw [dispatch_error ran]
      rfl
    | ok after => rfl
  | abortIfTripped flag => cases passed
  | requireTrue value message => cases above
  | failAssertion failure detail => cases above
  | _ => rfl

end Operation

namespace Turn

def operation? (t : Turn) : Option Operation :=
  match t.step with
  | .leaf _ operation => some operation
  | .run _ _ _ => none

def violates (t : Turn) : Bool := t.operation?.any Operation.violates

def calls (t : Turn) : Bool := t.operation?.any Operation.isCall

/-- The turn obeyed a set flag. -/
def aborts (t : Turn) : Bool := t.operation?.any Operation.isAbort && t.played.halt.isSome

def onHandle (t : Turn) : Bool := t.operation?.any Operation.onHandle

def gained (t : Turn) : List Happening := since t.stage.world t.played.stage.world

/-- How often the test itself dispatched the failure event during the turn. -/
def failEvents (t : Turn) : Nat := t.gained.countP (Happening.dispatches failEvent)

end Turn

/-- The failure events of some turns, one turn after the other. -/
def eventsOf (turns : List Turn) : Nat :=
  turns.foldr (fun turn events => turn.failEvents + events) 0

/-- The failure events that the violated checks among some turns dispatched. -/
def checkEvents (turns : List Turn) : Nat := eventsOf (turns.filter Turn.violates)

/-- The failure events that the script itself asked for. -/
def callEvents (turns : List Turn) : Nat := eventsOf (turns.filter Turn.calls)

@[simp] theorem eventsOf_nil : eventsOf [] = 0 := rfl

theorem eventsOf_append (ts us : List Turn) :
    eventsOf (ts ++ us) = eventsOf ts + eventsOf us := by
  induction ts with
  | nil => simp
  | cons t rest ih =>
    simp only [eventsOf, List.cons_append, List.foldr_cons] at ih ⊢
    omega

theorem checkEvents_cons (t : Turn) (ts : List Turn) :
    checkEvents (t :: ts) = (if t.violates then t.failEvents else 0) + checkEvents ts := by
  unfold checkEvents
  cases violated : t.violates <;> simp [violated, eventsOf]

theorem callEvents_cons (t : Turn) (ts : List Turn) :
    callEvents (t :: ts) = (if t.calls then t.failEvents else 0) + callEvents ts := by
  unfold callEvents
  cases called : t.calls <;> simp [called, eventsOf]

theorem checkEvents_append (ts us : List Turn) :
    checkEvents (ts ++ us) = checkEvents ts + checkEvents us := by
  rw [checkEvents, List.filter_append, eventsOf_append, checkEvents, checkEvents]

theorem callEvents_append (ts us : List Turn) :
    callEvents (ts ++ us) = callEvents ts + callEvents us := by
  rw [callEvents, List.filter_append, eventsOf_append, callEvents, callEvents]

section Leaves

variable (names : Names) (on : String) (operation : Operation) (scope : Scope) (stage : Stage)

def leafTurn : Turn := ⟨names, .leaf on operation, scope, stage⟩

theorem leafTurn_played :
    (leafTurn names on operation scope stage).played = playLeaf on operation scope stage := by
  rw [Turn.played, leafTurn, playStep]

theorem leafTurn_failEvents :
    checkEvents [leafTurn names on operation scope stage] +
        callEvents [leafTurn names on operation scope stage] =
      (leafTurn names on operation scope stage).failEvents := by
  have violates : (leafTurn names on operation scope stage).violates = operation.violates := rfl
  have calls : (leafTurn names on operation scope stage).calls = operation.isCall := rfl
  rw [checkEvents_cons, callEvents_cons, violates, calls]
  cases violated : operation.violates with
  | true =>
    have uncalled : operation.isCall = false := by
      cases operation with
      | dispatch event => cases violated
      | _ => rfl
    simp [uncalled, checkEvents, callEvents]
  | false =>
    cases called : operation.isCall with
    | true => simp [checkEvents, callEvents]
    | false =>
      have quiet := playLeaf_quiet on operation scope stage violated called
      have none : (leafTurn names on operation scope stage).failEvents = 0 := by
        rw [Turn.failEvents, Turn.gained, leafTurn_played]
        exact countP_calm quiet.since_calm
      simp [none, checkEvents, callEvents]

end Leaves

/-- Violated checks and the script's own calls dispatch every failure event of a play. -/
theorem failEvents_law : PlayLaw (fun _ _ => True) fun first ts last =>
    last.world.dispatchCount failEvent =
      first.world.dispatchCount failEvent + (checkEvents ts + callEvents ts) where
  nil stage := rfl
  append := by
    intro first middle last ts us before behind
    rw [behind, before, checkEvents_append, callEvents_append]
    omega
  leafScope _ _ _ _ := trivial
  openScope _ _ _ _ := trivial
  leaf := by
    intro names scope on operation stage _
    have counted := leafTurn_failEvents names on operation scope stage
    rw [leafTurn] at counted
    rw [counted, dispatchCount_grown (playLeaf_grown on operation scope stage), Turn.failEvents,
      Turn.gained, Turn.played, playStep]
  run := by
    intro names scope ts on sub body stage _ inner
    rw [playStep_run, (closeRun_calm _ _ _ _ _).quiet.dispatchCount_eq, inner,
      (openRun_calm _ _ _ _).quiet.dispatchCount_eq, checkEvents_cons, callEvents_cons]
    simp [Turn.violates, Turn.calls, Turn.operation?]

def AllRecorded (scope : Scope) : Prop := ∀ on, (scope.context on).Recorded

theorem AllRecorded.ofRoot (name : String) :
    AllRecorded (Scope.ofRoot (.root .native (.recorder name))) := by
  intro on
  rw [Scope.context_ofRoot]
  exact ⟨rfl, name, rfl⟩

/-- A violated check on a recorder leaves a fatal stop for its failure event, and neither when the
event does not come back. -/
theorem leaf_stops_violated (names : Names) {scope : Scope} (all : AllRecorded scope)
    (on : String) (operation : Operation) (stage : Stage) (violated : operation.violates = true) :
    (stopsOf (playLeaf on operation scope stage).halt).length =
      (leafTurn names on operation scope stage).failEvents := by
  obtain ⟨r, failed, halted, same⟩ := playLeaf_failed on operation scope stage violated
  rw [Turn.failEvents, Turn.gained, leafTurn_played, halted]
  rcases failed with ⟨endless, unchanged⟩ | announces
  · have quiet : Quiet stage.world (playLeaf on operation scope stage).stage.world :=
      .of_eq (by rw [same, unchanged])
    rw [leafTurn, countP_calm quiet.since_calm, endless]
    rfl
  · have begun : Announced failEvent stage.world (playLeaf on operation scope stage).stage.world :=
      announces.announced.quiet (.of_eq same)
    obtain ⟨later, since, calm⟩ := begun.since_eq
    rw [stopsOf_length (announces.stop (all on)), leafTurn, since, List.countP_cons,
      countP_calm calm]
    simp [Happening.dispatches]

theorem leaf_stops (names : Names) {scope : Scope} (all : AllRecorded scope) (on : String)
    (operation : Operation) (stage : Stage) (above : operation.onHandle = false) :
    (stopsOf (playLeaf on operation scope stage).halt).length =
      (if operation.violates then (leafTurn names on operation scope stage).failEvents else 0) +
        if (leafTurn names on operation scope stage).aborts then 1 else 0 := by
  have aborts : (leafTurn names on operation scope stage).aborts =
      (operation.isAbort && (playLeaf on operation scope stage).halt.isSome) := by
    rw [Turn.aborts, leafTurn_played]
    rfl
  rw [aborts]
  cases violated : operation.violates with
  | true =>
    have other : operation.isAbort = false := by
      cases operation with
      | abortIfTripped flag => cases violated
      | _ => rfl
    simp [leaf_stops_violated names all on operation stage violated, other]
  | false =>
    rw [playLeaf_halt]
    cases passed : operation.isAbort with
    | true =>
      rw [operation.exec_aborted _ scope stage (all on) passed]
      simp
    | false =>
      rw [operation.exec_unstopped _ scope stage violated passed above]
      simp

theorem allRecorded_law : ScopeLaw fun _ scope => AllRecorded scope :=
  .ofKind fun ⟨native, name, recorder⟩ backend handle => by
    refine ⟨backend.trans native, ?_⟩
    rcases handle with same | ⟨sub, w, child⟩
    · exact ⟨name, same.trans recorder⟩
    · rw [recorder] at child
      exact ⟨_, child⟩

theorem turn_stops (turn : Turn) (all : AllRecorded turn.scope) (above : turn.onHandle = false) :
    turn.stops.length =
      (if turn.violates then turn.failEvents else 0) + if turn.aborts then 1 else 0 := by
  obtain ⟨names, step, scope, stage⟩ := turn
  cases step with
  | leaf on operation =>
    have stopped := leaf_stops names all on operation stage above
    rw [← leafTurn_played names] at stopped
    exact stopped
  | run on sub body =>
    rw [run_stops]
    rfl

theorem turns_stops : ∀ turns : List Turn,
    (∀ turn ∈ turns, AllRecorded turn.scope ∧ turn.onHandle = false) →
      (turns.flatMap Turn.stops).length = checkEvents turns + turns.countP Turn.aborts
  | [], _ => rfl
  | turn :: rest, all => by
    have here := turn_stops turn (all turn List.mem_cons_self).1 (all turn List.mem_cons_self).2
    have later := turns_stops rest fun other member => all other (List.mem_cons_of_mem _ member)
    rw [List.flatMap_cons, List.length_append, here, later, checkEvents_cons,
      List.countP_cons]
    omega

theorem Turn.announces (turn : Turn) (violated : turn.violates = true)
    (returned : turn.played.halt ≠ some .endless) :
    turn.played.halt ≠ none ∧ ∃ later, turn.gained = .dispatched failEvent :: later ∧
      ∀ h ∈ later, h.isDispatch = false := by
  obtain ⟨names, step, scope, stage⟩ := turn
  cases step with
  | run on sub body => cases violated
  | leaf on operation =>
    rw [Turn.played, playStep] at returned
    rw [Turn.gained, Turn.played, playStep]
    obtain ⟨r, failed, halted, same⟩ := playLeaf_failed on operation scope stage violated
    rcases failed with ⟨endless, _⟩ | announces
    · exact absurd (halted.trans (congrArg some endless)) returned
    · refine ⟨?_, (announces.announced.quiet (.of_eq same)).since_eq⟩
      rw [halted]
      exact Option.some_ne_none _

theorem Turn.calm (turn : Turn) (leaf : turn.operation?.isSome = true)
    (satisfied : turn.violates = false) (uncalled : turn.calls = false) :
    ∀ h ∈ turn.gained, h.isDispatch = false := by
  obtain ⟨names, step, scope, stage⟩ := turn
  cases step with
  | run on sub body => cases leaf
  | leaf on operation =>
    rw [Turn.gained, Turn.played, playStep]
    exact (playLeaf_quiet on operation scope stage satisfied uncalled).since_calm

/-- What the failure event does in a play: `turns` are its turns, and `last` is its last world. -/
structure FailureEventExact (kind : HandleKind) (backend : Backend) (turns : List Turn)
    (last : World) : Prop where
  /-- A violated check halts, and dispatches the event once and before all else. -/
  first : ∀ turn ∈ turns, turn.violates = true → turn.played.halt ≠ some .endless →
    turn.played.halt ≠ none ∧ ∃ later, turn.gained = .dispatched failEvent :: later ∧
      ∀ h ∈ later, h.isDispatch = false
  /-- A leaf that violates nothing and does not ask for a dispatch makes none. -/
  calm : ∀ turn ∈ turns, turn.operation?.isSome = true → turn.violates = false →
    turn.calls = false → ∀ h ∈ turn.gained, h.isDispatch = false
  /-- Nor does a sub-test by itself: checks and calls make all failure events of the play. -/
  total : last.dispatchCount failEvent = checkEvents turns + callEvents turns
  /-- Each fatal stop of a native recorder belongs to a failed check or to a set flag. -/
  stops : kind = .recorder → backend = .native → (∀ turn ∈ turns, turn.onHandle = false) →
    last.journal.fatals.length = checkEvents turns + turns.countP Turn.aborts

theorem failureEvent_exact (patience : Nat) (kind : HandleKind) (backend : Backend)
    (name : String) (steps : List Step) :
    FailureEventExact kind backend (turnsFresh patience kind backend name steps)
      (playFresh patience kind backend name steps).stage.world where
  first turn _ := turn.announces
  calm turn _ := turn.calm
  total := by
    have play := failEvents_law.steps steps .ofRoot
      (Scope.ofRoot (.root backend (freshRoot patience kind name).1))
      ⟨(freshRoot patience kind name).2, []⟩ trivial
    have none : (freshRoot patience kind name).2.dispatchCount failEvent = 0 := by
      cases kind <;> rfl
    rw [none, Nat.zero_add] at play
    exact play
  stops := by
    intro recorder native above
    subst recorder native
    have recorded := allRecorded_law.turnsOf steps .ofRoot
      (Scope.ofRoot (.root .native (.recorder name))) ⟨World.start patience, []⟩ (.ofRoot name)
    have journal := journal_law.steps steps .ofRoot
      (Scope.ofRoot (.root .native (.recorder name))) ⟨World.start patience, []⟩ trivial
    have counted := turns_stops _ fun turn member => ⟨recorded turn member, above turn member⟩
    have none : (World.start patience).journal.fatals = [] := rfl
    rw [none, List.nil_append] at journal
    rw [playFresh]
    exact (congrArg List.length journal).trans counted

end NodeHarness
