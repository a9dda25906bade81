import NodeHarness.Proofs.PrinterVerdicts

/-! How far a failure reaches. What halts a step ends the body in which the step stands; a sub-test
that fails leaves a mark on a handle from outside its body; and so a failure at any depth comes to
the root, which speaks of it when it is dropped. -/
namespace NodeHarness

/-- The turn stands, at any depth, in the body of a sub-test of which `P` holds. -/
def Turn.Inside (t : Turn) (turns : List Turn) (P : SubTest → Prop) : Prop :=
  ∃ run ∈ turns, t ∈ run.inner ∧ ∃ s, run.subTest? = some s ∧ P s

theorem Turn.Inside.mono {t : Turn} {turns others : List Turn} {P : SubTest → Prop}
    (inside : t.Inside turns P) (among : ∀ turn ∈ turns, turn ∈ others) : t.Inside others P := by
  obtain ⟨run, member, rest⟩ := inside
  exact ⟨run, among run member, rest⟩

section Occurrences

variable {turn : Turn} {names : Names} {steps : List Step} {scope : Scope} {stage : Stage}
variable {on sub : String} {body rest : List Step} {step : Step} {P : SubTest → Prop}

theorem Turn.Inside.deeper
    (inside : turn.Inside (turnsOf (names.inside on (openRun on sub scope stage).handle.name) body
      (openRun on sub scope stage).scope (openRun on sub scope stage).stage) P) :
    turn.Inside (turnsOf names (.run on sub body :: rest) scope stage) P :=
  inside.mono fun _ among => (Occurs.inside (.of_mem among)).mem

theorem Turn.Inside.later (returned : (playStep step scope stage).halt = none)
    (inside : turn.Inside (turnsOf (names.after step) rest (playStep step scope stage).scope
      (playStep step scope stage).stage) P) :
    turn.Inside (turnsOf names (step :: rest) scope stage) P :=
  inside.mono fun _ among => (Occurs.later returned (.of_mem among)).mem

theorem Turn.Inside.run
    (occurs : Occurs turn (names.inside on (openRun on sub scope stage).handle.name) body
      (openRun on sub scope stage).scope (openRun on sub scope stage).stage)
    (holds : P ⟨on, sub, body, scope, stage⟩) :
    turn.Inside (turnsOf names (.run on sub body :: rest) scope stage) P :=
  ⟨⟨names, .run on sub body, scope, stage⟩, Occurs.here.mem, occurs.mem, _, rfl, holds⟩

/-- What halts a turn ends the play, or the body of a sub-test in which the turn stands. -/
theorem halt_lands (occurs : Occurs turn names steps scope stage) {halt : Halt}
    (ended : turn.played.halt = some halt) :
    (playSteps steps scope stage).halt = some halt ∨
      turn.Inside (turnsOf names steps scope stage) fun s => s.played.halt = some halt := by
  induction occurs with
  | here => exact .inl (by rw [playSteps_halted ended, ← Turn.played, ended])
  | inside inner ih =>
    rcases ih with here | below
    · exact .inr (.run inner here)
    · exact .inr below.deeper
  | later returned _ ih =>
    rw [playSteps_halt returned]
    exact ih.imp id (.later returned)

end Occurrences

/-- The play gave control back, or a sub-test around it will take its halt up. -/
def Played.CameBack (played : Played) : Prop := ∀ halt, played.halt = some halt → halt.caught = true

/-- The handle at a place can be named in the scope. -/
def Scope.Knows (scope : Scope) (place : Nat) : Prop :=
  ∃ on, (scope.context on).handle.place? = some place

theorem Scope.Knows.behind {step : Step} {scope : Scope} {stage : Stage} {place : Nat}
    (known : (playStep step scope stage).scope.Knows place) : scope.Knows place := by
  obtain ⟨on, known⟩ := known
  cases step with
  | leaf name operation =>
    rw [playStep] at known
    obtain ⟨source, _, same, _⟩ := leaf_source .ofRoot name operation scope stage on
    exact ⟨source, same ▸ known⟩
  | run name sub body =>
    rw [playStep_run, closeRun_scope] at known
    exact ⟨on, known⟩

/-- In the body of a sub-test its own handle can be named, and those around it. -/
theorem OnPrinters.knows_opened {scope : Scope} {stage : Stage} (fits : OnPrinters scope stage)
    {on sub : String} {place : Nat} (known : (openRun on sub scope stage).scope.Knows place) :
    place = stage.world.printers.length ∨ scope.Knows place := by
  obtain ⟨name, known⟩ := known
  rw [OnRecorder.openRun_context] at known
  split at known
  · obtain ⟨own, handle, _⟩ := fits.opened on sub
    rw [handle] at known
    exact .inl (Option.some.inj known).symm
  · exact .inr ⟨name, known⟩

def World.MarksOne (w : World) (scope : Scope) : Prop :=
  ∃ place, scope.Knows place ∧ w.failedAt place = true

theorem World.MarksOne.later {w after : World} {scope : Scope} (marks : w.MarksOne scope)
    (told : w.Told) (keeps : w.Keeps after) : after.MarksOne scope := by
  obtain ⟨place, known, failed⟩ := marks
  exact ⟨place, known, keeps.failed told failed⟩

theorem SubTest.Sound.marks_parent {s : SubTest} (sound : s.Sound)
    (failed : s.verdict = some false) : s.closed.stage.world.MarksOne s.scope := by
  obtain ⟨name, above, handle, _⟩ := sound.fits.handles s.on
  have known : s.parent.place? = some above := by
    rw [SubTest.parent, handle]
    rfl
  have told :=
    (OnPrinters.stageLaw_keeps.step (.run s.on s.name s.body) _ _ sound.fits).2.told sound.told
  have fails := (sound.onPrinter.closed_fails above).mpr (.inr ⟨known, failed⟩)
  exact ⟨above, ⟨s.on, known⟩, (told above).mpr fails⟩

theorem SubTest.Sound.marks_around {s : SubTest} (sound : s.Sound) (returned : s.verdict ≠ none)
    (marks : s.played.stage.world.MarksOne s.opened.scope) :
    s.closed.stage.world.MarksOne s.scope := by
  obtain ⟨place, known, failed⟩ := marks
  rcases sound.fits.knows_opened known with rfl | known
  · -- the mark is on the sub-test's own handle, so the sub-test fails and marks its parent
    obtain ⟨turn, member, fails⟩ := sound.own.mp failed
    exact sound.marks_parent (sound.failed_of_fails returned member fails)
  · have fits : OnPrinters s.scope s.played.stage :=
      sound.fits.kept ((sound.fits.openKeeps s.on s.name).trans
        (OnPrinters.stageLaw_keeps.steps s.body _ _ sound.opened.1).2)
    have closed : s.played.stage.world.Keeps s.closed.stage.world := by
      rw [SubTest.closed, playStep_run]
      exact OnPrinters.closeKeeps s.on s.name s.stage fits
    exact World.MarksOne.later ⟨place, known, failed⟩ sound.played closed

theorem SubTest.Sound.cameBack {s : SubTest} (sound : s.Sound) (returned : s.verdict ≠ none) :
    s.played.CameBack := by
  intro halt ended
  cases caught : halt.caught with
  | true => rfl
  | false =>
    rw [sound.onPrinter.verdict_eq] at returned
    exact absurd (Played.verdict_eq_none.mpr ⟨halt, ended, caught⟩) returned

theorem Played.CameBack.head {step : Step} {rest : List Step} {scope : Scope} {stage : Stage}
    (back : (playSteps (step :: rest) scope stage).CameBack) :
    (playStep step scope stage).CameBack := by
  intro halt ended
  rw [← playSteps_halted ended] at ended
  exact back halt ended

theorem World.MarksOne.head {step : Step} {rest : List Step} {scope : Scope} {stage : Stage}
    (marks : (playStep step scope stage).stage.world.MarksOne scope)
    (fits : OnPrinters scope stage) (told : stage.world.Told) :
    (playSteps (step :: rest) scope stage).stage.world.MarksOne scope :=
  marks.later ((OnPrinters.stageLaw_keeps.step step scope stage fits).2.told told)
    (OnPrinters.stageLaw_keeps.head step rest fits)

/-- A sub-test that fails, at any depth, leaves a mark on a handle of the scope that it was played
in. -/
theorem marks_scope {turn : Turn} {names : Names} {steps : List Step} {scope : Scope}
    {stage : Stage} (occurs : Occurs turn names steps scope stage) (fits : OnPrinters scope stage)
    (told : stage.world.Told) (back : (playSteps steps scope stage).CameBack) {s : SubTest}
    (run : turn.subTest? = some s) (failed : s.verdict = some false) :
    (playSteps steps scope stage).stage.world.MarksOne scope := by
  induction occurs with
  | here =>
    obtain ⟨names, rfl⟩ := Turn.eq_of_subTest run
    have sound : s.Sound := ⟨fits, told⟩
    exact (sound.marks_parent failed).head fits told
  | @inside names on sub body rest scope stage _ ih =>
    have sound : (SubTest.mk on sub body scope stage).Sound := ⟨fits, told⟩
    have returned : (SubTest.mk on sub body scope stage).verdict ≠ none := by
      intro lost
      obtain ⟨halt, ended, free⟩ := sound.onPrinter.closed_halt lost
      cases free.symm.trans (back.head halt ended)
    have inner := ih sound.opened.1 sound.opened.2 (sound.cameBack returned)
    exact (sound.marks_around returned inner).head fits told
  | @later names step rest scope stage ended _ ih =>
    have first := OnPrinters.stageLaw_keeps.step step scope stage fits
    have behind : (playSteps rest (playStep step scope stage).scope
        (playStep step scope stage).stage).CameBack := fun halt same =>
      back halt ((playSteps_halt ended).trans same)
    obtain ⟨place, known, marked⟩ := ih first.1 (first.2.told told) behind
    rw [playSteps_stage ended]
    exact ⟨place, known.behind, marked⟩

mutual

theorem subTests_names_step : ∀ (step : Step) (names others : Names) (scope : Scope)
    (stage : Stage), subTests (turnsOfStep names step scope stage) =
      subTests (turnsOfStep others step scope stage)
  | .leaf on operation, names, others, scope, stage => by
    rw [turnsOfStep, turnsOfStep]
    rfl
  | .run on sub body, names, others, scope, stage => by
    rw [turnsOfStep, turnsOfStep]
    exact congrArg (List.cons _) (subTests_names body _ _ _ _)

/-- The sub-tests of a play do not depend on the names. -/
theorem subTests_names : ∀ (steps : List Step) (names others : Names) (scope : Scope)
    (stage : Stage), subTests (turnsOf names steps scope stage) =
      subTests (turnsOf others steps scope stage)
  | [], names, others, scope, stage => by
    rw [turnsOf, turnsOf]
  | step :: rest, names, others, scope, stage => by
    have first := subTests_names_step step names others scope stage
    have later := subTests_names rest (names.after step) (others.after step)
      (playStep step scope stage).scope (playStep step scope stage).stage
    rw [turnsOf, turnsOf, subTests, subTests, List.filterMap_append, List.filterMap_append]
    rw [subTests, subTests] at first
    cases (playStep step scope stage).halt with
    | some halt => rw [first]
    | none =>
      rw [subTests, subTests] at later
      rw [first, later]

end

/-- A handle that a turn can name comes from the scope around the play, or belongs to a sub-test
around the turn. -/
theorem knows_around {turn : Turn} {names : Names} {steps : List Step} {scope : Scope}
    {stage : Stage} (occurs : Occurs turn names steps scope stage) (fits : OnPrinters scope stage)
    {place : Nat} (known : turn.scope.Knows place) :
    scope.Knows place ∨ turn.Inside (turnsOf names steps scope stage) fun s => s.place = place := by
  induction occurs with
  | here => exact .inl known
  | inside inner ih =>
    rcases ih (fits.openFits _ _) with known | below
    · rcases fits.knows_opened known with own | outer
      · exact .inr (.run inner own.symm)
      · exact .inl outer
    · exact .inr below.deeper
  | @later names step rest scope stage ended _ ih =>
    rcases ih (OnPrinters.stageLaw_keeps.step step scope stage fits).1 with outer | below
    · exact .inl outer.behind
    · exact .inr (below.later ended)

theorem below_of_inside {turn : Turn} {turns : List Turn} {s : SubTest} {place : Nat}
    (run : turn.subTest? = some s) (parent : s.parent.place? = some place)
    (inside : turn.Inside turns fun above => above.place = place) :
    ∃ above ∈ subTests turns, s.Below above := by
  obtain ⟨outer, member, among, above, is, rfl⟩ := inside
  refine ⟨above, List.mem_filterMap.mpr ⟨outer, member, is⟩, ?_, parent⟩
  have inner : s ∈ subTests outer.inner := List.mem_filterMap.mpr ⟨turn, among, run⟩
  obtain ⟨names, rfl⟩ := Turn.eq_of_subTest is
  rw [SubTest.turns, subTests_names above.body .ofBody]
  exact inner

/-- What is promised of a sub-test that was run from a printer. -/
structure SubTest.Concludes (s : SubTest) : Prop where
  handle : s.opened.handle = .printer s.fullName s.place
  verdict : s.verdict = match s.played.halt with
    | none => some (!s.played.stage.world.failedAt s.place)
    | some halt => if halt.caught then some false else none
  passes : s.verdict = some true ↔
    s.played.halt = none ∧ s.played.stage.world.failedAt s.place = false
  own : s.played.stage.world.failedAt s.place = true ↔ ∃ turn ∈ s.turns, turn.Fails s.place
  fails : s.verdict ≠ none → (s.verdict = some false ↔ s.Doomed)
  traced : ∀ passed, s.verdict = some passed →
    s.closed.traces = [.run s.fullName s.played.traces
      [.printed (World.verdictLine passed s.fullName)]
      (some (passed, s.parent.facts s.closed.stage.world))]
  printed : ∀ passed, s.verdict = some passed →
    s.closed.stage.world.history = .returned s.parent s.opened.handle passed ::
      .noted (.printed (World.verdictLine passed s.fullName)) :: s.played.stage.world.history

theorem SubTest.Sound.concludes {s : SubTest} (sound : s.Sound) : s.Concludes where
  handle := sound.onPrinter.handle
  verdict := sound.onPrinter.verdict_eq
  passes := by rw [sound.onPrinter.verdict_eq, Played.verdict_eq_true]
  own := sound.own
  fails returned := ⟨s.doomed_of_failed sound, fun doomed => doomed.failed sound returned⟩
  traced passed verdict := by
    have taken : s.played.stage.world.notes = [] := by
      have steps := OnPrinters.stageLaw_keeps.steps s.body _ _ sound.opened.1
      exact steps.2.taken sound.opened.1.taken
    obtain ⟨name, above, parent⟩ := sound.onPrinter
    have closed := SubTest.closed_eq parent
    rw [← sound.onPrinter.verdict_eq, verdict] at closed
    rw [closed]
    simp only [World.taken, World.judged_notes, taken]
    rfl
  printed passed verdict := by rw [sound.onPrinter.history, verdict]

theorem Turn.StopsOn.failed {turn : Turn} {name : String} {place : Nat}
    (stops : turn.StopsOn (.printer name place)) (told : turn.played.stage.world.Told) :
    turn.played.stage.world.failedAt place = true := by
  obtain ⟨message, _, earlier, _, since, _⟩ := stops.last
  have last : .stopped (.printer name place) message ∈
      World.since turn.stage.world turn.played.stage.world := by simp [since]
  exact (told place).mpr ⟨_, World.since_subset _ _ last, rfl⟩

theorem turnsOfStep_eq (turn : Turn) :
    turnsOfStep turn.names turn.step turn.scope turn.stage = turn :: turn.inner := by
  obtain ⟨names, step, scope, stage⟩ := turn
  cases step <;> (rw [turnsOfStep]; rfl)

/-- A flag that a turn finds unset is set behind it exactly if the turn, or one in it, made the
handle fail. -/
theorem Turn.fails_exact {turn : Turn} (fits : OnPrinters turn.scope turn.stage)
    (told : turn.stage.world.Told) (place : Nat) :
    turn.played.stage.world.failedAt place = true ↔
      turn.stage.world.failedAt place = true ∨ ∃ t ∈ turn :: turn.inner, t.Fails place := by
  have printers (on : String) :
      ∃ name above, (turn.scope.context on).handle = .printer name above := by
    obtain ⟨name, above, handle, _⟩ := fits.handles on
    exact ⟨name, above, handle⟩
  have causes := fails_law.step turn.step turn.names turn.scope turn.stage printers place
  rw [turnsOfStep_eq] at causes
  have behind : turn.played.stage.world.Told := (OnPrinters.stageLaw_keeps.played fits).told told
  rw [behind place, told place]
  exact causes

/-- How failure spreads over the turns of a play whose root is the first printer. -/
structure Spreads (turns : List Turn) (final : Played) : Prop where
  told : ∀ turn ∈ turns, turn.stage.world.Told ∧ turn.played.stage.world.Told
  -- a stop is raised by violated checks, obeyed flags and failed assertions, and by nothing else
  raised : ∀ turn ∈ turns, ∀ place,
    turn.Raises place ↔ ∃ name, turn.StopsOn (.printer name place)
  -- it sets the flag of its handle, wherever the handle comes from, and halts the step
  stops : ∀ turn ∈ turns, ∀ name place, turn.StopsOn (.printer name place) →
    turn.played.stage.world.failedAt place = true ∧
      ∃ message, turn.played.halt = some (.panic (name ++ ": " ++ message))
  exact : ∀ turn ∈ turns, ∀ place, turn.played.stage.world.failedAt place = true ↔
    turn.stage.world.failedAt place = true ∨ ∃ t ∈ turn :: turn.inner, t.Fails place
  lasting : ∀ turn ∈ turns, ∀ place, turn.stage.world.failedAt place = true →
    turn.played.stage.world.failedAt place = true
  kept : ∀ turn ∈ turns, ∀ place, turn.played.stage.world.failedAt place = true →
    final.stage.world.failedAt place = true
  ordered : turns.Pairwise fun earlier later => ∀ place,
    earlier.stage.world.failedAt place = true → later.stage.world.failedAt place = true
  concludes : ∀ s ∈ subTests turns, s.Concludes
  -- a stop or panic, at any depth, ends the body around it, which dooms that sub-test
  lands : ∀ turn ∈ turns, ∀ halt, turn.played.halt = some halt →
    final.halt = some halt ∨ turn.Inside turns fun s => s.played.halt = some halt
  -- every sub-test is below another one, which it dooms when it is doomed, or below the root
  chain : ∀ s ∈ subTests turns, s.parent.place? = some 0 ∨
    ∃ above ∈ subTests turns, s.Below above
  reaches : final.CameBack → ∀ s ∈ subTests turns, s.verdict = some false →
    final.stage.world.failedAt 0 = true
  root : final.stage.world.failedAt 0 = true ↔ ∃ turn ∈ turns, turn.Fails 0

structure Propagates (patience : Nat) (backend : Backend) (name : String) (steps : List Step) :
    Prop where
  spreads : Spreads (turnsFresh patience .printer backend name steps)
    (playFresh patience .printer backend name steps)
  root : ∀ (w : World) unwinding,
    ((Handle.printer name 0).dropPanic .root unwinding w).isSome = true ↔
      w.failedAt 0 = true ∧ unwinding = false
  others : ∀ (h : Handle) origin, origin ≠ .root →
    ∀ unwinding w, h.dropPanic origin unwinding w = none
  ending : (playScript patience .printer backend name steps).halt =
    (playFresh patience .printer backend name steps).halt.or
      (if backend = .native ∧
          (playFresh patience .printer backend name steps).stage.world.failedAt 0 = true then
        some (.panic ("--- FAIL: " ++ name ++ " (one or more sub-tests failed)"))
      else none)

theorem World.start_told (patience : Nat) : (World.start patience).addPrinter.1.Told := by
  intro place
  rw [failedAt_addPrinter]
  constructor
  · intro failed
    exact absurd (lt_of_failedAt failed) (Nat.not_lt_zero place)
  · rintro ⟨h, among, _⟩
    cases among

theorem Spreads.ofRoot (patience : Nat) (backend : Backend) (name : String) (steps : List Step) :
    Spreads (turnsFresh patience .printer backend name steps)
      (playFresh patience .printer backend name steps) := by
  have fits : OnPrinters (Scope.ofRoot (.root backend (.printer name 0)))
      ⟨(World.start patience).addPrinter.1, []⟩ := by
    refine ⟨fun on => ⟨name, 0, ?_, Nat.zero_lt_one⟩, rfl⟩
    rw [Scope.context_ofRoot]
    rfl
  have only {place : Nat} (known : (Scope.ofRoot
      (.root backend (.printer name 0))).Knows place) : place = 0 := by
    obtain ⟨on, known⟩ := known
    rw [Scope.context_ofRoot] at known
    exact (Option.some.inj known).symm
  have told := World.start_told patience
  have points (turn : Turn) (member : turn ∈ turnsFresh patience .printer backend name steps) :
      OnPrinters turn.scope turn.stage ∧ turn.stage.world.Told := by
    have here := OnPrinters.stageLaw_keeps.reached (.of_mem member) fits
    exact ⟨here.1, here.2.told told⟩
  have keeps (turn : Turn) (member : turn ∈ turnsFresh patience .printer backend name steps) :
      turn.stage.world.Keeps turn.played.stage.world :=
    OnPrinters.stageLaw_keeps.played (points turn member).1
  refine ⟨?_, ?_, ?_, ?_, ?_, ?_, ?_, ?_, ?_, ?_, ?_, ?_⟩
  · intro turn member
    have before := (points turn member).2
    exact ⟨before, (keeps turn member).told before⟩
  · exact fun turn _ place => Turn.raises_iff
  · intro turn member name place stops
    obtain ⟨message, _, _, halt, _⟩ := stops.last
    exact ⟨stops.failed ((keeps turn member).told (points turn member).2), message, halt⟩
  · intro turn member place
    exact Turn.fails_exact (points turn member).1 (points turn member).2 place
  · intro turn member place failed
    exact (keeps turn member).failed (points turn member).2 failed
  · intro turn member place failed
    have behind := OnPrinters.stageLaw_keeps.endOf (.of_mem member) fits
    exact World.Keeps.failed behind ((keeps turn member).told (points turn member).2) failed
  · refine (OnPrinters.stageLaw_keeps.ordered steps .ofRoot _ _ fits).imp_of_mem ?_
    intro earlier later member _ grows place failed
    exact World.Keeps.failed grows (points earlier member).2 failed
  · intro s member
    obtain ⟨turn, among, run⟩ := List.mem_filterMap.mp member
    have here := points turn among
    exact (SubTest.sound_of_turn run here.1 here.2).concludes
  · intro turn member halt ended
    exact halt_lands (.of_mem member) ended
  · intro s member
    obtain ⟨turn, among, run⟩ := List.mem_filterMap.mp member
    have here := points turn among
    obtain ⟨printer, above, parent⟩ := (SubTest.sound_of_turn run here.1 here.2).onPrinter
    have place : s.parent.place? = some above := by
      rw [parent]
      rfl
    have known : turn.scope.Knows above := by
      obtain ⟨names, rfl⟩ := Turn.eq_of_subTest run
      exact ⟨s.on, place⟩
    rcases knows_around (.of_mem among) fits known with outer | inside
    · exact .inl (only outer ▸ place)
    · exact .inr (below_of_inside run place inside)
  · intro back s member failed
    obtain ⟨turn, among, run⟩ := List.mem_filterMap.mp member
    obtain ⟨place, known, flagged⟩ := marks_scope (.of_mem among) fits told back run failed
    exact only known ▸ flagged
  · have printers (on : String) : ∃ printer above, ((Scope.ofRoot
        (.root backend (.printer name 0))).context on).handle = .printer printer above := by
      rw [Scope.context_ofRoot]
      exact ⟨name, 0, rfl⟩
    have final := (OnPrinters.stageLaw_keeps.steps steps _ _ fits).2.told told
    have causes :=
      fails_law.steps steps .ofRoot _ ⟨(World.start patience).addPrinter.1, []⟩ printers
    refine (final 0).trans ((causes 0).trans (or_iff_right ?_))
    rintro ⟨h, among, _⟩
    cases among

theorem playScript_halt (patience : Nat) (kind : HandleKind) (backend : Backend) (name : String)
    (steps : List Step) :
    (playScript patience kind backend name steps).halt =
      (playFresh patience kind backend name steps).halt.or
        (((freshRoot patience kind name).1.dropPanic backend.origin
          (playFresh patience kind backend name steps).halt.isSome
          (playFresh patience kind backend name steps).stage.world).map .panic) := by
  unfold playScript
  cases ended : (playFresh patience kind backend name steps).halt with
  | none => simp only [ended]
  | some halt => cases halt <;> simp [ended]

theorem failure_propagates (patience : Nat) (backend : Backend) (name : String)
    (steps : List Step) : Propagates patience backend name steps where
  spreads := .ofRoot patience backend name steps
  root w unwinding := by
    simp only [Handle.dropPanic, World.failedAt]
    cases unwinding <;> simp
  others h origin other unwinding w := h.dropPanic_silent other unwinding w
  ending := by
    rw [playScript_halt, freshRoot, World.addPrinter]
    cases (playFresh patience .printer backend name steps).halt with
    | none =>
      cases backend <;> simp [Handle.dropPanic, Backend.origin, World.failedAt, World.start,
        apply_ite (Option.map Halt.panic)]
    | some halt => simp

end NodeHarness
