import NodeHarness.Proofs.Stops

/-! Verdicts on a recorder's sub-tests. A recorder has no failure flag: it looks for fatal stops
that came after the start of a sub-test and carry its name or a name below it. The promise of a
handle is about what happened on the sub-test's own context. The two agree on a sub-test that
returns unless the failure of a sub-test of its own is lost, or a stop from outside is mistaken
for its own. -/
namespace NodeHarness

structure SubTest where
  on : String
  name : String
  body : List Step
  scope : Scope
  stage : Stage

def Turn.subTest? (t : Turn) : Option SubTest :=
  match t.step with
  | .leaf _ _ => none
  | .run on name body => some ⟨on, name, body, t.scope, t.stage⟩

def subTests (turns : List Turn) : List SubTest := turns.filterMap Turn.subTest?

def Turn.Stopped (t : Turn) : Prop := ∃ test message, t.played.halt = some (.fatal test message)

namespace SubTest

variable (s : SubTest)

def opened : Opening := openRun s.on s.name s.scope s.stage

def fullName : String := s.opened.handle.name

def played : Played := playSteps s.body s.opened.scope s.opened.stage

/-- What running the sub-test gave back, if it came back. -/
def verdict : Option Bool :=
  match (playStep (.run s.on s.name s.body) s.scope s.stage).traces with
  | [.run _ _ _ ended] => ended.map Prod.fst
  | _ => none

def turns : List Turn := turnsOf .ofBody s.body s.opened.scope s.opened.stage

/-- The fatal stops of the body, at any depth. -/
def stops : List FatalStop := s.turns.flatMap Turn.stops

/-- The sub-tests that were run on the sub-test's own context or one derived from it. -/
def ownRuns : List SubTest := subTests (s.turns.filter fun turn => turn.kin = .self)

/-- A fatal stop was raised on the sub-test's own handle. -/
def StoppedItself : Prop := ∃ turn ∈ s.turns, turn.kin = .self ∧ turn.Stopped

/-- The promise of a handle: a sub-test passes exactly when its body returns, nothing stopped it,
and every sub-test of its own passed. -/
def Promised : Prop :=
  s.verdict = some true ↔
    s.played.halt = none ∧ ¬ s.StoppedItself ∧ ∀ r ∈ s.ownRuns, r.verdict = some true

def Named : Prop := ∃ stop ∈ s.stops, Handle.concerns s.fullName stop = true

/-- A sub-test of its own was halted, and no stop by that name tells. -/
def Lost : Prop := ¬ s.Named ∧ ∃ r ∈ s.ownRuns, r.played.halt ≠ none

/-- A stop has the name but was raised on a handle that has nothing to do with the sub-test,
nothing stopped the sub-test itself, and every sub-test of its own passed. -/
def Mistaken : Prop :=
  (∃ turn ∈ s.turns, turn.kin = .outside ∧
    ∃ stop ∈ turn.stops, Handle.concerns s.fullName stop = true) ∧
  ¬ s.StoppedItself ∧ ∀ r ∈ s.ownRuns, r.verdict = some true

end SubTest

namespace Handle

theorem concerns_self (name message : String) : concerns name ⟨name, message⟩ = true := by
  simp [concerns]

/-- What is below a sub-test of a test is below the test. -/
theorem concerns_above {name sub : String} {stop : FatalStop}
    (below : concerns (name ++ "/" ++ sub) stop = true) : concerns name stop = true := by
  simp only [concerns, Bool.or_eq_true, decide_eq_true_eq, List.isPrefixOf_iff_prefix,
    String.toList_append] at below ⊢
  right
  rcases below with same | ⟨rest, same⟩
  · rw [same]
    exact ⟨sub.toList, by simp⟩
  · exact ⟨sub.toList ++ "/".toList ++ rest, by simpa using same⟩

theorem concerns_child {test name message : String} (sub : String)
    (below : concerns test ⟨name, message⟩ = true) :
    concerns test ⟨name ++ "/" ++ sub, message⟩ = true := by
  simp only [concerns, Bool.or_eq_true, decide_eq_true_eq, List.isPrefixOf_iff_prefix,
    String.toList_append] at below ⊢
  right
  rcases below with same | ⟨rest, same⟩
  · rw [same]
    exact ⟨sub.toList, by simp⟩
  · exact ⟨rest ++ "/".toList ++ sub.toList, by rw [← same]; simp⟩

end Handle

/-- What a handle of some kin to `h` is. -/
def Kin.Is (h : Handle) : Kin → Handle → Prop
  | .self, other => other = h
  | .below test, other => ∀ message, Handle.concerns test ⟨other.name, message⟩ = true
  | .outside, _ => True

/-- The names stand for handles of their kin to `h`, and all are recorders. -/
structure OnRecorder (h : Handle) (names : Names) (scope : Scope) : Prop where
  kin : ∀ on, (names on).Is h (scope.context on).handle
  recorders : ∀ on, ∃ name, (scope.context on).handle = .recorder name

namespace OnRecorder

variable {h : Handle} {names : Names} {scope : Scope}

theorem after_leaf (fits : OnRecorder h names scope) (on : String) (operation : Operation)
    (stage : Stage) :
    OnRecorder h (names.after (.leaf on operation)) (playLeaf on operation scope stage).scope := by
  constructor
  · intro name
    obtain ⟨source, same, handle, _⟩ := leaf_source names on operation scope stage name
    rw [same, handle]
    exact fits.kin source
  · intro name
    obtain ⟨source, _, handle, _⟩ := leaf_source names on operation scope stage name
    rw [handle]
    exact fits.recorders source

theorem openRun_handle (fits : OnRecorder h names scope) (on sub : String) (stage : Stage) :
    (openRun on sub scope stage).handle =
      .recorder ((scope.context on).handle.name ++ "/" ++ sub) := by
  obtain ⟨name, recorder⟩ := fits.recorders on
  simp only [openRun, recorder]
  rfl

theorem openRun_context (on sub : String) (scope : Scope) (stage : Stage) (name : String) :
    ((openRun on sub scope stage).scope.context name).handle =
      if name = Scope.self then (openRun on sub scope stage).handle
      else (scope.context name).handle := by
  simp only [openRun, Scope.context_bind]
  split <;> rfl

theorem opened_recorders (fits : OnRecorder h names scope) (on sub : String) (stage : Stage)
    (name : String) :
    ∃ given, ((openRun on sub scope stage).scope.context name).handle = .recorder given := by
  rw [openRun_context]
  split
  · exact ⟨_, fits.openRun_handle on sub stage⟩
  · exact fits.recorders name

theorem ofBody_opened (fits : OnRecorder h names scope) (on sub : String) (stage : Stage) :
    OnRecorder (openRun on sub scope stage).handle .ofBody (openRun on sub scope stage).scope := by
  refine ⟨?_, fits.opened_recorders on sub stage⟩
  intro name
  rw [openRun_context, Names.ofBody]
  split
  · exact rfl
  · exact trivial

theorem child_is (fits : OnRecorder h names scope) (on sub : String) (stage : Stage) :
    ((names on).child (openRun on sub scope stage).handle.name).Is h
      (openRun on sub scope stage).handle := by
  have kin := fits.kin on
  cases related : names on with
  | self => exact fun message => Handle.concerns_self _ message
  | below test =>
    rw [related] at kin
    intro message
    rw [fits.openRun_handle]
    exact Handle.concerns_child sub (kin message)
  | outside => exact trivial

theorem inside_opened (fits : OnRecorder h names scope) (on sub : String) (stage : Stage) :
    OnRecorder h (names.inside on (openRun on sub scope stage).handle.name)
      (openRun on sub scope stage).scope := by
  refine ⟨?_, fits.opened_recorders on sub stage⟩
  intro name
  rw [openRun_context, Names.inside, Names.put]
  split
  · exact fits.child_is on sub stage
  · exact fits.kin name

theorem ofRoot (backend : Backend) (name : String) :
    OnRecorder (.recorder name) .ofRoot (Scope.ofRoot (.root backend (.recorder name))) := by
  constructor
  · intro on
    rw [Scope.context_ofRoot]
    exact rfl
  · intro on
    rw [Scope.context_ofRoot]
    exact ⟨name, rfl⟩

theorem scopeLaw (h : Handle) : ScopeLaw (OnRecorder h) where
  leafScope on operation stage fits := fits.after_leaf on operation stage
  openScope on sub stage fits := fits.inside_opened on sub stage

end OnRecorder

/-- The turn runs a sub-test `test` from the handle that is looked at, and `deep` is in its body. -/
def Turn.Holds (run deep : Turn) (test : String) : Prop :=
  run.kin = .self ∧ deep ∈ run.inner ∧ ∃ r, run.subTest? = some r ∧ r.fullName = test

theorem Names.inside_below {names : Names} {on test name other : String}
    (below : names.inside on test name = .below other) :
    (∃ name, names name = .below other) ∨ names on = .self ∧ test = other := by
  simp only [Names.inside, Names.put] at below
  split at below
  · cases related : names on with
    | self =>
      rw [related] at below
      cases below
      exact .inr ⟨rfl, rfl⟩
    | below given =>
      rw [related] at below
      cases below
      exact .inl ⟨on, related⟩
    | outside =>
      rw [related] at below
      cases below
  · exact .inl ⟨name, below⟩

theorem Names.after_below {names : Names} {step : Step} {name test : String}
    (below : names.after step name = .below test) : ∃ name, names name = .below test := by
  unfold Names.after at below
  split at below
  · simp only [Names.put] at below
    split at below
    · exact ⟨_, below⟩
    · exact ⟨_, below⟩
  · exact ⟨_, below⟩

mutual

theorem below_step : ∀ (step : Step) (names : Names) (scope : Scope) (stage : Stage) (deep : Turn)
    (test : String), deep ∈ turnsOfStep names step scope stage → deep.kin = .below test →
      (∃ name, names name = .below test) ∨
        ∃ run ∈ turnsOfStep names step scope stage, run.Holds deep test
  | .leaf on operation, names, scope, stage, deep, test, member, below => by
    rw [turnsOfStep] at member
    rw [List.mem_singleton.mp member] at below
    exact .inl ⟨on, below⟩
  | .run on sub body, names, scope, stage, deep, test, member, below => by
    rw [turnsOfStep] at member ⊢
    rcases List.mem_cons.mp member with rfl | found
    · exact .inl ⟨on, below⟩
    rcases below_steps body _ _ _ deep test found below with ⟨name, inside⟩ | ⟨run, among, holds⟩
    · rcases Names.inside_below inside with outer | ⟨own, named⟩
      · exact .inl outer
      · exact .inr ⟨_, List.mem_cons_self, own, found, _, rfl, named⟩
    · exact .inr ⟨run, List.mem_cons_of_mem _ among, holds⟩

/-- A turn below a test stands in the body of that test, unless the names were so before. -/
theorem below_steps : ∀ (steps : List Step) (names : Names) (scope : Scope) (stage : Stage)
    (deep : Turn) (test : String), deep ∈ turnsOf names steps scope stage →
      deep.kin = .below test → (∃ name, names name = .below test) ∨
        ∃ run ∈ turnsOf names steps scope stage, run.Holds deep test
  | [], names, scope, stage, deep, test, member, _ => by
    rw [turnsOf] at member
    cases member
  | step :: rest, names, scope, stage, deep, test, member, below => by
    rcases mem_turnsOf_cons.mp member with here | ⟨ended, later⟩
    · rcases below_step step names scope stage deep test here below with outer | ⟨run, among, holds⟩
      · exact .inl outer
      · exact .inr ⟨run, mem_turnsOf_cons.mpr (.inl among), holds⟩
    · rcases below_steps rest _ _ _ deep test later below with ⟨name, outer⟩ | ⟨run, among, holds⟩
      · exact .inl (Names.after_below outer)
      · exact .inr ⟨run, mem_turnsOf_cons.mpr (.inr ⟨ended, among⟩), holds⟩

end

/-- The fatal stops of a play do not depend on the names. -/
theorem stops_names (names others : Names) (steps : List Step) (scope : Scope) (stage : Stage) :
    (turnsOf names steps scope stage).flatMap Turn.stops =
      (turnsOf others steps scope stage).flatMap Turn.stops := by
  have here := journal_law.steps steps names scope stage trivial
  have there := journal_law.steps steps others scope stage trivial
  exact List.append_cancel_left (here.symm.trans there)

theorem mem_stops {turn : Turn} {stop : FatalStop} :
    stop ∈ turn.stops ↔ turn.played.halt = some (.fatal stop.test stop.message) := by
  rw [Turn.stops, stopsOf]
  cases turn.played.halt with
  | none => simp
  | some halt =>
    cases halt with
    | fatal test message =>
      obtain ⟨given, text⟩ := stop
      simp [Halt.stop?, eq_comm]
    | _ => simp [Halt.stop?]

/-- A stop carries the name of the handle on which it is raised. -/
theorem stop_raiser {turn : Turn} {stop : FatalStop} (raised : stop ∈ turn.stops) :
    (turn.scope.context turn.step.on).handle = .recorder stop.test := by
  obtain ⟨names, step, scope, stage⟩ := turn
  cases step with
  | run on sub body =>
    rw [run_stops] at raised
    cases raised
  | leaf on operation =>
    have halted := mem_stops.mp raised
    rw [Turn.played, playStep] at halted
    exact (playLeaf_journaled on operation scope stage).raiser _ _ halted

namespace SubTest

variable {s : SubTest} {h : Handle} {names : Names}

theorem verdict_eq (fits : OnRecorder h names s.scope) :
    s.verdict = match s.played.halt with
      | none => some (!s.stops.any (Handle.concerns s.fullName))
      | some halt => if halt.caught then some false else none := by
  have recorder : s.opened.handle = .recorder s.fullName := by
    simp only [fullName, opened, fits.openRun_handle]
    rfl
  have closed : playStep (.run s.on s.name s.body) s.scope s.stage =
      closeRun (s.scope.context s.on).handle s.opened.handle
        s.opened.stage.world.journal.fatals.length s.scope s.played :=
    playStep_run _ _ _ _ _
  have journal : s.played.stage.world.journal.fatals =
      s.opened.stage.world.journal.fatals ++ s.stops :=
    journal_law.steps s.body .ofBody s.opened.scope s.opened.stage trivial
  rw [verdict, closed, recorder]
  simp only [closeRun, Handle.conclude]
  cases s.played.halt with
  | none =>
    rw [journal, List.drop_left]
    rfl
  | some halt => by_cases caught : halt.caught = true <;> simp [caught]

theorem verdict_true_iff (fits : OnRecorder h names s.scope) :
    s.verdict = some true ↔ s.played.halt = none ∧ ¬ s.Named := by
  rw [verdict_eq fits]
  cases s.played.halt with
  | none => simp [Named]
  | some halt => cases caught : halt.caught <;> simp [caught]

theorem turn_fits (fits : OnRecorder h names s.scope) {turn : Turn} (member : turn ∈ s.turns) :
    OnRecorder s.opened.handle turn.names turn.scope :=
  (OnRecorder.scopeLaw s.opened.handle).turnsOf s.body .ofBody s.opened.scope s.opened.stage
    (fits.ofBody_opened s.on s.name s.stage) turn member

theorem named_of_stoppedItself (fits : OnRecorder h names s.scope) (stopped : s.StoppedItself) :
    s.Named := by
  obtain ⟨turn, member, own, test, message, halted⟩ := stopped
  have raised : (⟨test, message⟩ : FatalStop) ∈ turn.stops := mem_stops.mpr halted
  have kin := (turn_fits fits member).kin turn.step.on
  rw [show turn.names turn.step.on = .self from own, stop_raiser raised] at kin
  have same : Handle.recorder test = s.opened.handle := kin
  refine ⟨⟨test, message⟩, List.mem_flatMap.mpr ⟨turn, member, raised⟩, ?_⟩
  rw [fullName, ← same]
  exact Handle.concerns_self test message

theorem stops_of_inner {turn : Turn} {r : SubTest} (member : turn ∈ s.turns)
    (run : turn.subTest? = some r) : r.stops = turn.inner.flatMap Turn.stops ∧
      ∀ stop ∈ r.stops, stop ∈ s.stops := by
  have same : r.stops = turn.inner.flatMap Turn.stops := by
    obtain ⟨marks, step, scope, stage⟩ := turn
    cases step with
    | leaf on operation => cases run
    | run on sub body =>
      cases run
      exact stops_names _ _ _ _ _
  refine ⟨same, ?_⟩
  intro stop raised
  rw [same] at raised
  obtain ⟨deep, found, stopped⟩ := List.mem_flatMap.mp raised
  exact List.mem_flatMap.mpr ⟨deep, inner_mem s.body _ _ _ turn member deep found, stopped⟩

theorem ownRun_below (fits : OnRecorder h names s.scope) {r : SubTest} (member : r ∈ s.ownRuns) :
    (∃ names, OnRecorder s.opened.handle names r.scope) ∧
      r.fullName = s.fullName ++ "/" ++ r.name ∧ ∀ stop ∈ r.stops, stop ∈ s.stops := by
  obtain ⟨turn, found, run⟩ := List.mem_filterMap.mp member
  obtain ⟨here, own⟩ := List.mem_filter.mp found
  have inner := turn_fits fits here
  have among := (stops_of_inner here run).2
  obtain ⟨marks, step, scope, stage⟩ := turn
  cases step with
  | leaf on operation => cases run
  | run on sub body =>
    cases run
    have kin : (marks on).Is s.opened.handle (scope.context on).handle := inner.kin on
    rw [show marks on = .self from of_decide_eq_true own] at kin
    refine ⟨⟨marks, inner⟩, ?_, among⟩
    simp only [fullName, opened, inner.openRun_handle]
    rw [show (scope.context on).handle = s.opened.handle from kin]
    rfl

theorem named_of_ownRun (fits : OnRecorder h names s.scope) {r : SubTest} (member : r ∈ s.ownRuns)
    (named : r.Named) : s.Named := by
  obtain ⟨_, below, among⟩ := ownRun_below fits member
  obtain ⟨stop, new, concerned⟩ := named
  rw [below] at concerned
  exact ⟨stop, among stop new, Handle.concerns_above concerned⟩

/-- A stop below a sub-test has the name of a sub-test of its own, and is a stop of its body. -/
theorem ownRun_of_below (fits : OnRecorder h names s.scope) {turn : Turn} {test : String}
    {stop : FatalStop} (member : turn ∈ s.turns) (below : turn.kin = .below test)
    (raised : stop ∈ turn.stops) : ∃ r ∈ s.ownRuns, r.Named := by
  have kin := (turn_fits fits member).kin turn.step.on
  rw [show turn.names turn.step.on = .below test from below, stop_raiser raised] at kin
  rcases below_steps s.body _ _ _ turn test member below with ⟨name, outer⟩ | ⟨run, among, holds⟩
  · simp only [Names.ofBody] at outer
    split at outer <;> cases outer
  · obtain ⟨own, found, r, is, named⟩ := holds
    refine ⟨r, ?_, stop, ?_, ?_⟩
    · exact List.mem_filterMap.mpr ⟨run, List.mem_filter.mpr ⟨among, decide_eq_true own⟩, is⟩
    · rw [(stops_of_inner among is).1]
      exact List.mem_flatMap.mpr ⟨turn, found, raised⟩
    · rw [named]
      exact kin stop.message

theorem mistaken_of_named (fits : OnRecorder h names s.scope) (named : s.Named)
    (unstopped : ¬ s.StoppedItself) (passed : ∀ r ∈ s.ownRuns, r.verdict = some true) :
    s.Mistaken := by
  obtain ⟨stop, new, concerned⟩ := named
  obtain ⟨turn, member, raised⟩ := List.mem_flatMap.mp new
  refine ⟨⟨turn, member, ?_, stop, raised, concerned⟩, unstopped, passed⟩
  cases related : turn.kin with
  | self => exact absurd ⟨turn, member, related, _, _, mem_stops.mp raised⟩ unstopped
  | below test =>
    obtain ⟨r, own, named⟩ := ownRun_of_below fits member related raised
    obtain ⟨⟨_, inner⟩, _, _⟩ := ownRun_below fits own
    exact absurd named ((verdict_true_iff inner).mp (passed r own)).2
  | outside => rfl

theorem named_of_mistaken (mistaken : s.Mistaken) : s.Named := by
  obtain ⟨⟨turn, member, _, stop, raised, concerned⟩, _, _⟩ := mistaken
  exact ⟨stop, List.mem_flatMap.mpr ⟨turn, member, raised⟩, concerned⟩

theorem halted_or_named (fits : OnRecorder h names s.scope) {r : SubTest} (member : r ∈ s.ownRuns)
    (fails : r.verdict ≠ some true) : r.played.halt ≠ none ∨ s.Named := by
  obtain ⟨⟨_, inner⟩, _, _⟩ := ownRun_below fits member
  by_cases returned : r.played.halt = none
  · have named : r.Named := Classical.byContradiction fun unnamed =>
      fails ((verdict_true_iff inner).mpr ⟨returned, unnamed⟩)
    exact .inr (named_of_ownRun fits member named)
  · exact .inl returned

/-- The promise is kept on every sub-test that is halted, and on one that returns exactly when
nothing is lost and nothing mistaken. -/
theorem promised_iff (fits : OnRecorder h names s.scope) :
    s.Promised ↔ (s.played.halt = none → ¬ s.Lost ∧ ¬ s.Mistaken) := by
  rw [Promised, verdict_true_iff fits]
  constructor
  · intro promised returned
    constructor
    · rintro ⟨unnamed, r, member, ended⟩
      obtain ⟨⟨_, inner⟩, _, _⟩ := ownRun_below fits member
      have passed := (promised.mp ⟨returned, unnamed⟩).2.2 r member
      exact ended ((verdict_true_iff inner).mp passed).1
    · intro mistaken
      exact (promised.mpr ⟨returned, mistaken.2⟩).2 (named_of_mistaken mistaken)
  · intro kept
    constructor
    · rintro ⟨returned, unnamed⟩
      refine ⟨returned, fun stopped => unnamed (named_of_stoppedItself fits stopped), ?_⟩
      intro r member
      refine Decidable.byContradiction fun fails => ?_
      rcases halted_or_named fits member fails with ended | named
      · exact (kept returned).1 ⟨unnamed, r, member, ended⟩
      · exact unnamed named
    · rintro ⟨returned, unstopped, passed⟩
      exact ⟨returned, fun named =>
        (kept returned).2 (mistaken_of_named fits named unstopped passed)⟩

end SubTest

/-- The verdict on every sub-test that a script on a recorder comes to, and when it keeps the
promise of a handle. -/
theorem recorder_verdicts (patience : Nat) (backend : Backend) (name : String)
    (steps : List Step) (s : SubTest)
    (met : s ∈ subTests (turnsFresh patience .recorder backend name steps)) :
    (s.verdict = match s.played.halt with
      | none => some (!s.stops.any (Handle.concerns s.fullName))
      | some halt => if halt.caught then some false else none) ∧
    (s.Promised ↔ (s.played.halt = none → ¬ s.Lost ∧ ¬ s.Mistaken)) := by
  obtain ⟨turn, member, run⟩ := List.mem_filterMap.mp met
  have fits : OnRecorder (.recorder name) turn.names turn.scope :=
    (OnRecorder.scopeLaw (.recorder name)).turnsOf steps .ofRoot _ _
      (OnRecorder.ofRoot backend name) turn member
  have same : s.scope = turn.scope := by
    rw [Turn.subTest?] at run
    split at run
    · cases run
    · cases run
      rfl
  rw [← same] at fits
  exact ⟨SubTest.verdict_eq fits, SubTest.promised_iff fits⟩

/-- A sub-test that runs a sub-test of its own, which panics. -/
def nestedPanic : SubTest where
  on := "root"
  name := "a"
  body := [.run "t" "b" [.leaf "t" (.panic "boom")]]
  scope := .ofRoot (.root .native (.recorder "root"))
  stage := ⟨.start 0, []⟩

/-- The panic is lost on the outer sub-test: it passes, against its promise. -/
theorem nestedPanic_lost :
    nestedPanic ∈ subTests
      (turnsFresh 0 .recorder .native "root" [.run "root" "a" nestedPanic.body]) ∧
    nestedPanic.verdict = some true ∧ ¬ nestedPanic.Promised := by
  have met : nestedPanic ∈ subTests
      (turnsFresh 0 .recorder .native "root" [.run "root" "a" nestedPanic.body]) :=
    List.mem_cons_self
  obtain ⟨verdict, promised⟩ := recorder_verdicts 0 .native "root" _ nestedPanic met
  have returned : nestedPanic.played.halt = none := rfl
  have silent : nestedPanic.stops = [] := rfl
  refine ⟨met, ?_, fun kept => (promised.mp kept returned).1 ⟨?_, ?_⟩⟩
  · rw [verdict, returned, silent]
    rfl
  · rintro ⟨stop, new, _⟩
    rw [silent] at new
    cases new
  · exact ⟨_, List.mem_cons_self, Option.some_ne_none _⟩

end NodeHarness
