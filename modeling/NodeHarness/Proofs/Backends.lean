import NodeHarness.Proofs.FailFlags
import NodeHarness.Proofs.PrinterVerdicts
import NodeHarness.Proofs.Records

/-! The two backends of a play. A native play writes no records and never ends the process. On a
standalone one nothing is logged or stopped on a handle, and the first failure ends the process from
any depth: nothing is played behind it, no sub-test around it gives a verdict, and its record is the
only fatal one and the last of all. -/
namespace NodeHarness

open World

mutual

/-- What was noted during a step, in order of time. -/
def Trace.notes : Trace → List Note
  | .leaf notes _ _ => notes
  | .run _ body notes _ => Trace.notesAll body ++ notes

def Trace.notesAll : List Trace → List Note
  | [] => []
  | t :: rest => t.notes ++ Trace.notesAll rest

end

theorem Trace.notesAll_append (ts us : List Trace) :
    notesAll (ts ++ us) = notesAll ts ++ notesAll us := by
  induction ts with
  | nil => simp [notesAll]
  | cons t rest ih => simp [notesAll, ih]

mutual

theorem playStep_noted : ∀ (step : Step) (scope : Scope) (stage : Stage),
    stage.world.notes = [] →
      (playStep step scope stage).stage.world.noted =
        stage.world.noted ++ Trace.notesAll (playStep step scope stage).traces
  | .leaf on operation, scope, stage, taken => by
    rw [playStep]
    simp only [playLeaf, Trace.notesAll, Trace.notes, List.append_nil]
    exact (operation.exec_adds (scope.context on) scope stage).noted taken
  | .run on sub body, scope, stage, taken => by
    have silent : (openRun on sub scope stage).stage.world.notes = [] :=
      taken_law.openGrows on sub trivial taken
    have inner := playSteps_noted body (openRun on sub scope stage).scope
      (openRun on sub scope stage).stage silent
    have behind := (taken_law.steps body (openRun on sub scope stage).scope
      (openRun on sub scope stage).stage trivial).2 silent
    have opened : (openRun on sub scope stage).stage.world.noted = stage.world.noted := by
      rw [noted, (openRun_ledger on sub scope stage).history]
      rfl
    rw [opened] at inner
    rcases playStep_closes on sub body scope stage with ⟨w, ended, adds, closed⟩ | closed
    · have told := adds.noted behind
      rw [inner, List.append_assoc] at told
      rw [closed]
      simp only [Trace.notesAll, Trace.notes, List.append_nil]
      exact told
    · rw [closed]
      simp only [Trace.notesAll, Trace.notes, List.append_nil]
      exact inner

/-- The notes that are seen in a play are all that was noted in it. -/
theorem playSteps_noted : ∀ (steps : List Step) (scope : Scope) (stage : Stage),
    stage.world.notes = [] →
      (playSteps steps scope stage).stage.world.noted =
        stage.world.noted ++ Trace.notesAll (playSteps steps scope stage).traces
  | [], scope, stage, taken => by
    rw [playSteps]
    simp [Trace.notesAll]
  | step :: rest, scope, stage, taken => by
    have first := playStep_noted step scope stage taken
    rw [playSteps]
    cases ended : (playStep step scope stage).halt with
    | some halt => simpa only [ended] using first
    | none =>
      have later := playSteps_noted rest (playStep step scope stage).scope
        (playStep step scope stage).stage ((taken_law.step step scope stage trivial).2 taken)
      simp only [later, first, Trace.notesAll_append, List.append_assoc]

end

namespace Turn

/-- The turn violates a check or obeys a set flag. -/
def fails (t : Turn) : Bool := t.violates || t.aborts

theorem leaf_fails_iff (t : Turn) {on : String} {operation : Operation}
    (step : t.step = .leaf on operation) :
    t.fails = true ↔ operation.violates = true ∨
      operation.isAbort = true ∧
        (operation.exec (t.scope.context on) t.scope t.stage).halt ≠ none := by
  simp only [fails, violates, aborts, operation?, step, played_leaf step, playLeaf_halt,
    Option.any_some, Bool.or_eq_true, Bool.and_eq_true, Option.isSome_iff_ne_none]

/-- What may happen in some turns of a backend: a stop on a standalone handle is asked of it in one
of them, and a fatal record is due to one that fails. -/
def Permit (backend : Backend) (turns : List Turn) (h : Happening) : Prop :=
  h.Allowed backend (∃ t ∈ turns, t.onHandle = true ∧ h ∈ t.gained)
    (∃ t ∈ turns, t.fails = true)

theorem Permit.mono {backend : Backend} {turns more : List Turn} (among : ∀ t ∈ turns, t ∈ more)
    {h : Happening} (permit : Permit backend turns h) : Permit backend more h := by
  refine Happening.Allowed.mono ?_ ?_ permit
  · rintro ⟨t, member, asked⟩
    exact ⟨t, among t member, asked⟩
  · rintro ⟨t, member, fails⟩
    exact ⟨t, among t member, fails⟩

end Turn

def Scope.OnBackend (backend : Backend) (scope : Scope) : Prop :=
  ∀ on, (scope.context on).backend = backend

theorem Scope.onBackend_law (backend : Backend) : ScopeLaw fun _ scope => scope.OnBackend backend :=
  @ScopeLaw.ofKind (fun c => c.backend = backend) fun own same _ => same.trans own

/-- What is done in a play is permitted to its turns. -/
theorem backend_law (backend : Backend) : PlayLaw (fun _ scope => scope.OnBackend backend)
    fun first ts last => Grows (Turn.Permit backend ts) first.world last.world where
  nil _ := .nil (.of_eq rfl rfl rfl)
  append before behind :=
    (before.mono fun _ => Turn.Permit.mono fun _ member => List.mem_append_left _ member).trans
      (behind.mono fun _ => Turn.Permit.mono fun _ member => List.mem_append_right _ member)
  toScopeLaw := Scope.onBackend_law backend
  leaf {names scope} on operation stage all := by
    obtain ⟨later, ledger, allowed⟩ :=
      (operation.exec_adds (scope.context on) scope stage).cleared
        (operation.exec (scope.context on) scope stage).stage
    refine ⟨later, ledger, fun h member => ?_⟩
    have permitted := allowed h member
    rw [all on] at permitted
    refine permitted.mono (fun asked => ?_) (fun failed => ?_)
    · refine ⟨leafTurn names on operation scope stage, List.mem_singleton_self _, asked, ?_⟩
      rw [Turn.gained, leafTurn_played]
      exact since_append ledger.history ▸ List.mem_reverse.mpr member
    · refine ⟨leafTurn names on operation scope stage, List.mem_singleton_self _, ?_⟩
      exact (Turn.leaf_fails_iff _ rfl).mpr failed
  run {names scope ts} on sub body stage all inner := by
    have opened : Grows (Turn.Permit backend (⟨names, .run on sub body, scope, stage⟩ :: ts))
        stage.world (openRun on sub scope stage).stage.world :=
      .nil (openRun_ledger on sub scope stage)
    have played := opened.trans
      (inner.mono fun _ => Turn.Permit.mono fun _ member => List.mem_cons_of_mem _ member)
    rcases playStep_closes on sub body scope stage with ⟨w, ended, adds, closed⟩ | closed
    · rw [closed]
      exact played.trans ((adds.cleared _).mono fun h (always : h.Always) => always _ _ _)
    · rw [closed]
      exact played

section Halts

variable {on sub : String} {body : List Step} {scope : Scope} {stage : Stage} {halt : Halt}

/-- A sub-test whose body ends the play gives no verdict and changes nothing. -/
theorem playStep_uncaught
    (ended : (playSteps body (openRun on sub scope stage).scope
      (openRun on sub scope stage).stage).halt = some halt) (free : halt.caught = false) :
    playStep (.run on sub body) scope stage =
      ⟨[.run (openRun on sub scope stage).handle.name
          (playSteps body (openRun on sub scope stage).scope
            (openRun on sub scope stage).stage).traces
          [] none], scope,
        (playSteps body (openRun on sub scope stage).scope
          (openRun on sub scope stage).stage).stage,
        some halt⟩ := by
  rw [playStep_run, closeRun]
  simp [ended, free]

/-- A halt that no sub-test takes up and that a leaf brings about ends the play there: its turn is
the last one, the world stays as it is, and no leaf before it was halted like that. -/
theorem lands_last {Fits : Names → Scope → Prop} {R : Stage → List Turn → Stage → Prop}
    (law : PlayLaw Fits R)
    (opens : ∀ names scope on sub body stage, Fits names scope →
      R stage [⟨names, .run on sub body, scope, stage⟩] (openRun on sub scope stage).stage)
    {turn : Turn} (leaf : turn.operation?.isSome = true) (ended : turn.played.halt = some halt)
    (free : halt.caught = false) {names : Names} {steps : List Step}
    (occurs : Occurs turn names steps scope stage) (fits : Fits names scope) :
    ∃ front, turnsOf names steps scope stage = front ++ [turn] ∧ R stage front turn.stage ∧
      (playSteps steps scope stage).stage = turn.played.stage ∧
      ∀ t ∈ front, t.operation?.isSome = true →
        ∀ other, t.played.halt = some other → other.caught = true := by
  induction occurs with
  | here =>
    have halted : (playStep turn.step turn.scope turn.stage).halt = some halt := ended
    refine ⟨[], ?_, law.nil _, ?_, by simp⟩
    · obtain ⟨names, step, scope, stage⟩ := turn
      cases step with
      | run on sub body => cases leaf
      | leaf on operation =>
        simp only [turnsOf, turnsOfStep, halted, List.append_nil, List.nil_append]
    · rw [playSteps_halted halted]
      rfl
  | @inside names above sub body rest scope stage inner ih =>
    obtain ⟨front, turns, grown, final, before⟩ := ih (law.openScope above sub stage fits)
    have handed := playStep_uncaught (ends_play inner ended free) free
    refine ⟨⟨names, .run above sub body, scope, stage⟩ :: front, ?_,
      law.append (opens names scope above sub body stage fits) grown, ?_, ?_⟩
    · rw [turnsOf, turnsOfStep, turns]
      simp only [handed, List.append_nil, List.cons_append]
    · rw [playSteps_halted (congrArg Played.halt handed), handed, final]
    · intro t member isLeaf
      rcases List.mem_cons.mp member with rfl | member
      · cases isLeaf
      · exact before t member isLeaf
  | @later names step rest scope stage returned behind ih =>
    obtain ⟨front, turns, grown, final, before⟩ := ih (law.toScopeLaw.after fits step stage)
    refine ⟨turnsOfStep names step scope stage ++ front, ?_,
      law.append (law.step step names scope stage fits) grown, ?_, ?_⟩
    · rw [turnsOf, turns]
      simp only [returned, List.append_assoc]
    · rw [playSteps_stage returned, final]
    · intro t member isLeaf other halted
      rcases List.mem_append.mp member with first | member
      · refine Decidable.byContradiction fun uncaught => ?_
        have alone := ends_play (occurs_step step [] names scope stage t first) halted
          (Bool.eq_false_iff.mpr uncaught)
        rw [playSteps_singleton, returned] at alone
        cases alone
      · exact before t member isLeaf other halted

mutual

theorem halt_source_step : ∀ (step : Step) (names : Names) (scope : Scope) (stage : Stage)
    {halt : Halt}, (playStep step scope stage).halt = some halt →
      ∃ turn ∈ turnsOfStep names step scope stage, ∃ on operation,
        turn.step = .leaf on operation ∧ turn.played.halt = some halt
  | .leaf on operation, names, scope, stage, halt, ended => by
    rw [turnsOfStep]
    exact ⟨_, List.mem_singleton_self _, on, operation, rfl, ended⟩
  | .run on sub body, names, scope, stage, halt, ended => by
    rcases playStep_closes on sub body scope stage with ⟨w, verdict, _, closed⟩ | closed
    · rw [closed] at ended
      cases ended
    · rw [closed] at ended
      obtain ⟨turn, member, found⟩ := halt_source body _ _ _ ended
      rw [turnsOfStep]
      exact ⟨turn, List.mem_cons_of_mem _ member, found⟩

/-- The halt of a play is that of one of its leaves. -/
theorem halt_source : ∀ (steps : List Step) (names : Names) (scope : Scope) (stage : Stage)
    {halt : Halt}, (playSteps steps scope stage).halt = some halt →
      ∃ turn ∈ turnsOf names steps scope stage, ∃ on operation,
        turn.step = .leaf on operation ∧ turn.played.halt = some halt
  | [], names, scope, stage, halt, ended => by
    rw [playSteps] at ended
    cases ended
  | step :: rest, names, scope, stage, halt, ended => by
    cases first : (playStep step scope stage).halt with
    | some other =>
      rw [playSteps_halted first] at ended
      obtain ⟨turn, member, found⟩ := halt_source_step step names scope stage ended
      exact ⟨turn, mem_turnsOf_cons.mpr (.inl member), found⟩
    | none =>
      rw [playSteps_halt first] at ended
      obtain ⟨turn, member, found⟩ := halt_source rest (names.after step) _ _ ended
      exact ⟨turn, mem_turnsOf_cons.mpr (.inr ⟨first, member⟩), found⟩

end

end Halts

namespace Note

/-- A record of the process, of whatever kind. -/
def isRecord : Note → Bool
  | .record _ _ _ _ => true
  | .callSite => true
  | .logged _ _ _ => true
  | _ => false

def isFatal : Note → Bool
  | .record _ _ _ fatal => fatal
  | _ => false

end Note

namespace Turn

variable {t : Turn}

theorem leaf_of_fails (fails : t.fails = true) : ∃ on operation, t.step = .leaf on operation := by
  obtain ⟨names, step, scope, stage⟩ := t
  cases step with
  | leaf on operation => exact ⟨on, operation, rfl⟩
  | run on sub body => cases fails

theorem isLeaf_of_step {on : String} {operation : Operation} (step : t.step = .leaf on operation) :
    t.operation?.isSome = true := by
  rw [operation?, step]
  rfl

/-- The failure event of a violated check comes back. -/
def IsHeard (t : Turn) : Prop :=
  t.violates = true → ∃ heard, t.stage.world.dispatch failEvent = .ok heard

theorem wrecks_or_hangs {on : String} {operation : Operation} (step : t.step = .leaf on operation)
    (standalone : t.scope.OnBackend .standalone) (fails : t.fails = true) :
    operation.Wrecks (t.scope.context on) t.scope t.stage ∨
      operation.Hangs (t.scope.context on) t.scope t.stage :=
  Operation.exec_wrecks (standalone on) ((leaf_fails_iff t step).mp fails)

/-- A failing turn on a standalone context ends the process. -/
theorem wrecks {on : String} {operation : Operation} (step : t.step = .leaf on operation)
    (standalone : t.scope.OnBackend .standalone) (fails : t.fails = true) (heard : t.IsHeard) :
    operation.Wrecks (t.scope.context on) t.scope t.stage := by
  refine (wrecks_or_hangs step standalone fails).resolve_right fun hangs => ?_
  obtain ⟨halt, unheard⟩ := hangs.unheard
  have violates : t.violates = true := by
    rw [Turn.violates, operation?, step]
    exact hangs.violated
  obtain ⟨w, ran⟩ := heard violates
  cases unheard.symm.trans ran

theorem failed_uncaught (standalone : t.scope.OnBackend .standalone) (fails : t.fails = true) :
    ∃ halt, t.played.halt = some halt ∧ halt.caught = false := by
  obtain ⟨on, operation, step⟩ := leaf_of_fails fails
  rw [played_leaf step, playLeaf_halt]
  rcases wrecks_or_hangs step standalone fails with wrecks | hangs
  · exact ⟨_, wrecks.halt, rfl⟩
  · exact ⟨_, hangs.halt, rfl⟩

theorem fails_abort {on flag : String} (step : t.step = .leaf on (.abortIfTripped flag)) :
    t.fails = t.stage.world.signals.tripped (t.stage.flag flag) := by
  rw [← abortIfTripped_halt flag (t.scope.context on) t.scope t.stage, ← playLeaf_halt,
    ← played_leaf step, fails, violates, aborts, operation?, step]
  rfl

end Turn

/-- How a failing turn ends the process. `turns` are those of the play. -/
structure EndsProcess (turns : List Turn) (ending : Ending) (last : World) (turn : Turn) :
    Prop where
  halt : ending.halt = some (.exit 1)
  exitCode : ending.exitCode = 1
  /-- Nothing is played behind it, and nothing failed before. -/
  final : ∃ front, turns = front ++ [turn] ∧ ∀ t ∈ front, t.fails = false
  untouched : last = turn.played.stage.world
  /-- No sub-test around it gives a verdict. -/
  unreported : ∀ run ∈ turns, turn ∈ run.inner → run.played.halt = some (.exit 1) ∧
    ∃ entered body, run.played.traces = [.run entered body [] none]
  /-- Its record is the last one, behind that of its call site, and no other is fatal. -/
  record : ∃ on operation earlier, turn.step = .leaf on operation ∧
    Trace.notesAll ending.traces = earlier ++ [.callSite,
      .record .error (operation.failureFields (turn.scope.context on)).toJson
        operation.failureText true] ∧
    ∀ n ∈ earlier, n.isFatal = false

/-- How the backends of a play are kept apart. -/
structure KeepsApart (backend : Backend) (turns : List Turn) (ending : Ending) (last : World) :
    Prop where
  native : backend = .native →
    (∀ n ∈ Trace.notesAll ending.traces, n.isRecord = false) ∧ ending.exitCode = 0
  lines : backend = .standalone → last.journal.lines = [] ∧
    ∀ text, .printed text ∈ Trace.notesAll ending.traces →
      ∃ passed test, text = World.verdictLine passed test
  /-- A handle is stopped only by a turn that goes past its context. -/
  stops : backend = .standalone → ∀ h message, .stopped h message ∈ last.history →
    ∃ turn ∈ turns, turn.onHandle = true ∧ .stopped h message ∈ turn.gained
  fatals : ∀ stop ∈ last.journal.fatals, .stopped (.recorder stop.test) stop.message ∈ last.history
  failure : backend = .standalone → ∀ turn ∈ turns, turn.fails = true → turn.IsHeard →
    EndsProcess turns ending last turn
  /-- A step that obeys a flag fails just when the flag is set. -/
  tripped : ∀ turn ∈ turns, ∀ on flag, turn.step = .leaf on (.abortIfTripped flag) →
    turn.fails = turn.stage.world.signals.tripped (turn.stage.flag flag)
  success : backend = .standalone → (∀ turn ∈ turns, turn.fails = false) →
    (∀ n ∈ Trace.notesAll ending.traces, n.isFatal = false) ∧ ending.exitCode = 0

section Fresh

variable (patience : Nat) (kind : HandleKind) (backend : Backend) (name : String)
  (steps : List Step)

theorem fresh_onBackend :
    (Scope.ofRoot (.root backend (freshRoot patience kind name).1)).OnBackend backend := by
  intro on
  rw [Scope.context_ofRoot]
  rfl

theorem playScript_traces : (playScript patience kind backend name steps).traces =
    (playFresh patience kind backend name steps).traces := by
  unfold playScript
  cases ended : (playFresh patience kind backend name steps).halt with
  | none => simp only [ended]
  | some halt => cases halt <;> simp [ended]

variable {patience kind backend name steps}

theorem playScript_exit {code : Nat}
    (ended : (playFresh patience kind backend name steps).halt = some (.exit code)) :
    (playScript patience kind backend name steps).halt = some (.exit code) ∧
      (playScript patience kind backend name steps).exitCode = code := by
  unfold playScript
  simp [ended]

theorem playScript_exitCode
    (alive : ∀ code, (playFresh patience kind backend name steps).halt ≠ some (.exit code)) :
    (playScript patience kind backend name steps).exitCode = 0 := by
  unfold playScript
  cases ended : (playFresh patience kind backend name steps).halt with
  | none => simp only [ended]
  | some halt =>
    cases halt with
    | exit code => exact absurd ended (alive code)
    | _ => simp [ended]

variable (patience kind backend name steps)

theorem fresh_noted : (playFresh patience kind backend name steps).stage.world.noted =
    Trace.notesAll (playScript patience kind backend name steps).traces := by
  have noted := playSteps_noted steps
    (Scope.ofRoot (.root backend (freshRoot patience kind name).1))
    ⟨(freshRoot patience kind name).2, []⟩ (by cases kind <;> rfl)
  rw [playScript_traces]
  refine noted.trans ?_
  cases kind <;> rfl

/-- All that is done in a play from a fresh root is permitted to its turns, and told. -/
theorem fresh_grows : Grows (Turn.Permit backend (turnsFresh patience kind backend name steps))
    (World.start patience) (playFresh patience kind backend name steps).stage.world := by
  obtain ⟨later, ledger, permitted⟩ := (backend_law backend).steps steps .ofRoot
    (Scope.ofRoot (.root backend (freshRoot patience kind name).1))
    ⟨(freshRoot patience kind name).2, []⟩ (fresh_onBackend patience kind backend name)
  have start : Ledger [] (World.start patience) (freshRoot patience kind name).2 := by
    cases kind <;> exact .of_eq rfl rfl rfl
  exact ⟨later, List.append_nil later ▸ start.trans ledger, permitted⟩

end Fresh

/-- Only a failure on a standalone context ends the process. -/
theorem exit_fails {turn : Turn} {on : String} {operation : Operation} {code : Nat}
    (step : turn.step = .leaf on operation) (ended : turn.played.halt = some (.exit code)) :
    (turn.scope.context on).backend = .standalone ∧ turn.fails = true := by
  rw [Turn.played_leaf step, playLeaf_halt] at ended
  obtain ⟨standalone, fails⟩ := Operation.exec_exit ended
  refine ⟨standalone, (Turn.leaf_fails_iff turn step).mpr (fails.imp_right fun aborts => ?_)⟩
  exact ⟨aborts, ended ▸ Option.some_ne_none _⟩

theorem unrecorded_of_allowed {handled failed : Prop} {n : Note}
    (allowed : Happening.Allowed .native handled failed (.noted n)) : n.isRecord = false := by
  cases n with
  | record level fields message fatal => cases allowed.1
  | callSite => cases allowed
  | logged level target message => cases allowed
  | _ => rfl

theorem unfatal_of_allowed {backend : Backend} {handled failed : Prop} {n : Note}
    (unfailed : ¬ failed)
    (allowed : Happening.Allowed backend handled failed (.noted n)) : n.isFatal = false := by
  cases n with
  | record level fields message fatal =>
    cases fatal with
    | true => exact absurd (allowed.2 rfl) unfailed
    | false => rfl
  | _ => rfl

section Failure

variable {patience : Nat} {kind : HandleKind} {name : String} {steps : List Step} {turn : Turn}

theorem fresh_turns {backend : Backend} :
    ∀ turn ∈ turnsFresh patience kind backend name steps, turn.scope.OnBackend backend :=
  (Scope.onBackend_law backend).turnsOf steps .ofRoot
    (Scope.ofRoot (.root backend (freshRoot patience kind name).1))
    ⟨(freshRoot patience kind name).2, []⟩ (fresh_onBackend patience kind backend name)

/-- What was noted before a failing turn's own record is not fatal. -/
theorem noted_unfatal {front : List Turn} (unfailed : ∀ t ∈ front, t.fails = false)
    {first before heard : World} (start : first.history = [])
    (grown : Grows (Turn.Permit .standalone front) first before)
    (announced : before.dispatch failEvent = .ok heard ∨ heard = before) :
    ∀ n ∈ heard.noted, n.isFatal = false := by
  have quiet : Grows (Happening.Allowed .standalone True False) first before := by
    refine grown.mono fun h permitted => Happening.Allowed.mono (fun _ => trivial) ?_ permitted
    rintro ⟨t, member, fails⟩
    exact absurd fails (Bool.eq_false_iff.mp (unfailed t member))
  have all : Grows (Happening.Allowed .standalone True False) first heard := by
    rcases announced with ran | rfl
    · exact quiet.trans (dispatch_adds ran).grows
    · exact quiet
  obtain ⟨later, ledger, allowed⟩ := all
  intro n member
  rw [mem_noted, ledger.history, start, List.append_nil] at member
  exact unfatal_of_allowed id (allowed _ member)

theorem fresh_ends (member : turn ∈ turnsFresh patience kind .standalone name steps)
    (fails : turn.fails = true) (isHeard : turn.IsHeard) :
    EndsProcess (turnsFresh patience kind .standalone name steps)
      (playScript patience kind .standalone name steps)
      (playFresh patience kind .standalone name steps).stage.world turn := by
  obtain ⟨on, operation, step⟩ := Turn.leaf_of_fails fails
  obtain ⟨halt, heard, announced, wreck⟩ := turn.wrecks step (fresh_turns turn member) fails isHeard
  rw [← playLeaf_halt, ← Turn.played_leaf step] at halt
  have occurs : Occurs turn .ofRoot steps
      (Scope.ofRoot (.root .standalone (freshRoot patience kind name).1))
      ⟨(freshRoot patience kind name).2, []⟩ := .of_mem member
  obtain ⟨front, split, grown, final, before⟩ := lands_last (backend_law .standalone)
    (fun _ scope on sub _ stage _ => .nil (openRun_ledger on sub scope stage))
    (Turn.isLeaf_of_step step) halt rfl occurs (fresh_onBackend patience kind .standalone name)
  have turns : turnsFresh patience kind .standalone name steps = front ++ [turn] := split
  have alone : ∀ t ∈ front, t.fails = false := by
    intro t among
    refine Bool.eq_false_iff.mpr fun failed => ?_
    obtain ⟨on, operation, step⟩ := Turn.leaf_of_fails failed
    have met : t ∈ turnsFresh patience kind .standalone name steps :=
      turns ▸ List.mem_append_left _ among
    obtain ⟨other, stopped, free⟩ := t.failed_uncaught (fresh_turns t met) failed
    rw [before t among (Turn.isLeaf_of_step step) other stopped] at free
    cases free
  obtain ⟨ended, code⟩ := playScript_exit (ends_play occurs halt rfl)
  have earlier := noted_unfatal alone (by cases kind <;> rfl) grown announced
  refine ⟨ended, code, ⟨front, turns, alone⟩, congrArg Stage.world final, ?_,
    on, operation, heard.noted, step, ?_, earlier⟩
  · intro run among inside
    obtain ⟨names, step, scope, stage⟩ := run
    cases step with
    | leaf on operation => cases inside
    | run above sub body =>
      have inner := ends_play (.of_mem inside) halt rfl
      rw [Turn.played, playStep_uncaught inner rfl]
      exact ⟨rfl, _, _, rfl⟩
  · have last : (playFresh patience kind .standalone name steps).stage.world.history =
        (heard.wreck (operation.failureFields (turn.scope.context on))
          operation.failureText).history := by
      rw [← wreck, playFresh]
      refine (congrArg (fun stage => stage.world.history) final).trans ?_
      rw [Turn.played_leaf step]
      rfl
    rw [← fresh_noted, ← wreck_noted, noted, noted, last]

end Failure

/-- A native script writes no records and does not end the process. A standalone one leaves its
handles alone, and its first failure is its last step. -/
theorem backends_keepApart (patience : Nat) (kind : HandleKind) (backend : Backend) (name : String)
    (steps : List Step) :
    KeepsApart backend (turnsFresh patience kind backend name steps)
      (playScript patience kind backend name steps)
      (playFresh patience kind backend name steps).stage.world := by
  obtain ⟨later, ledger, permitted⟩ := fresh_grows patience kind backend name steps
  have history : (playFresh patience kind backend name steps).stage.world.history = later :=
    ledger.history.trans (List.append_nil later)
  have seen (n : Note)
      (member : n ∈ Trace.notesAll (playScript patience kind backend name steps).traces) :
      Turn.Permit backend (turnsFresh patience kind backend name steps) (.noted n) := by
    rw [← fresh_noted, mem_noted, history] at member
    exact permitted _ member
  have alive (sound : ∀ turn ∈ turnsFresh patience kind backend name steps,
      backend = .standalone → turn.fails = false) :
      (playScript patience kind backend name steps).exitCode = 0 := by
    refine playScript_exitCode fun code ended => ?_
    obtain ⟨turn, member, on, operation, step, halted⟩ := halt_source steps .ofRoot _ _ ended
    obtain ⟨standalone, fails⟩ := exit_fails step halted
    rw [fresh_turns turn member on] at standalone
    rw [sound turn member standalone] at fails
    cases fails
  refine ⟨?_, ?_, ?_, ?_, ?_, fun turn _ _ _ => turn.fails_abort, ?_⟩
  · rintro rfl
    exact ⟨fun n member => unrecorded_of_allowed (seen n member), alive (fun _ _ => nofun)⟩
  · rintro rfl
    refine ⟨?_, fun text member => (seen _ member).resolve_left nofun⟩
    have unlined : later.filterMap Happening.line? = [] := by
      refine List.filterMap_eq_nil_iff.mpr fun h member => ?_
      cases h with
      | line test text => cases permitted _ member
      | _ => rfl
    rw [ledger.lines, unlined]
    rfl
  · rintro rfl h message member
    rw [history] at member
    exact (permitted _ member).resolve_left nofun
  · intro stop member
    rw [ledger.fatals] at member
    obtain ⟨h, among, kept⟩ := List.mem_filterMap.mp (List.mem_reverse.mp member)
    rw [history, ← Happening.eq_of_stop? kept]
    exact among
  · rintro rfl turn member fails isHeard
    exact fresh_ends member fails isHeard
  · rintro rfl sound
    refine ⟨fun n member => ?_, alive (fun turn member _ => sound turn member)⟩
    refine unfatal_of_allowed ?_ (seen n member)
    rintro ⟨turn, member, fails⟩
    rw [sound turn member] at fails
    cases fails

example : (playScript 1 .printer .standalone "standalone"
    [.run "t" "a" [.run "t" "b" [.leaf "t" (.mustBeTrue false)]],
      .leaf "t" (.say .plain "x")]).exitCode = 1 := rfl

end NodeHarness
