import NodeHarness.Proofs.Propagation

/-! Verdicts on a printer's sub-tests, and how far a failure reaches: through the verdicts of the
sub-tests that are run from one handle in the body of the test that has it, up to the root. -/
namespace NodeHarness

namespace SubTest

variable (s : SubTest)

def parent : Handle := (s.scope.context s.on).handle

def place : Nat := s.stage.world.printers.length

def closed : Played := playStep (.run s.on s.name s.body) s.scope s.stage

def OnPrinter : Prop := ∃ name above, s.parent = .printer name above

variable {s}

theorem OnPrinter.handle (on : s.OnPrinter) : s.opened.handle = .printer s.fullName s.place := by
  obtain ⟨name, above, parent⟩ := on
  have same : (s.scope.context s.on).handle = .printer name above := parent
  simp only [fullName, opened, openRun, same]
  rfl

theorem closed_eq {name : String} {above : Nat} (parent : s.parent = .printer name above) :
    s.closed =
      match s.played.verdict s.place with
      | none => ⟨[.run s.fullName s.played.traces [] none], s.scope, s.played.stage,
          s.played.halt⟩
      | some passed =>
        let w := s.played.stage.world.judged s.parent s.opened.handle above passed
        ⟨[.run s.fullName s.played.traces w.taken (some (passed, s.parent.facts w))],
          s.scope, (s.played.stage.withWorld w).clearNotes, none⟩ := by
  have own := OnPrinter.handle ⟨name, above, parent⟩
  have closing : s.closed = closeRun s.parent s.opened.handle
      s.opened.stage.world.journal.fatals.length s.scope s.played := playStep_run _ _ _ _ _
  rw [closing, own, parent]
  exact closeRun_printer _ _ _ _ _ _ _

theorem OnPrinter.verdict_eq (on : s.OnPrinter) : s.verdict = s.played.verdict s.place := by
  obtain ⟨name, above, parent⟩ := on
  have closed := closed_eq parent
  rw [SubTest.closed] at closed
  rw [verdict, closed]
  cases s.played.verdict s.place <;> rfl

theorem OnPrinter.history (on : s.OnPrinter) :
    s.closed.stage.world.history =
      match s.verdict with
      | none => s.played.stage.world.history
      | some passed => .returned s.parent s.opened.handle passed ::
          .noted (.printed (World.verdictLine passed s.fullName)) ::
            s.played.stage.world.history := by
  rw [on.verdict_eq]
  obtain ⟨name, above, parent⟩ := on
  rw [closed_eq parent]
  cases s.played.verdict s.place with
  | none => rfl
  | some passed => exact World.judged_history _ _ _ _ _

theorem OnPrinter.closed_fails (on : s.OnPrinter) (place : Nat) :
    (∃ h ∈ s.closed.stage.world.history, h.Fails place) ↔
      (∃ h ∈ s.played.stage.world.history, h.Fails place) ∨
        (s.parent.place? = some place ∧ s.verdict = some false) := by
  rw [on.history]
  cases s.verdict with
  | none => simp
  | some passed => cases passed <;> simp [Happening.Fails, or_comm]

theorem OnPrinter.opened_history (on : s.OnPrinter) :
    s.opened.stage.world.history = s.stage.world.history := by
  obtain ⟨name, above, parent⟩ := on
  have same : (s.scope.context s.on).handle = .printer name above := parent
  simp only [opened, openRun, same]
  rfl

end SubTest

theorem Turn.eq_of_subTest {t : Turn} {s : SubTest} (run : t.subTest? = some s) :
    ∃ names, t = ⟨names, .run s.on s.name s.body, s.scope, s.stage⟩ := by
  obtain ⟨names, step, scope, stage⟩ := t
  cases step with
  | leaf on operation => cases run
  | run on sub body =>
    cases run
    exact ⟨names, rfl⟩

/-- A fatal stop was raised in a step, on the handle at a place. -/
def Turn.Raises (t : Turn) (place : Nat) : Prop :=
  ∃ on operation, t.step = .leaf on operation ∧ ∃ h message, Handle.place? h = some place ∧
    .stopped h message ∈ World.since t.stage.world t.played.stage.world

/-- A step stops its test through the handle, and what it dispatches before that comes back. -/
def Turn.StopsOn (t : Turn) (h : Handle) : Prop :=
  ∃ on operation, t.step = .leaf on operation ∧ (t.scope.context on).handle = h ∧
    operation.Stops (t.scope.context on) t.stage ∧ t.played.halt ≠ some .endless

/-- A step makes the handle at a place fail, by a stop or by the verdict on a sub-test. -/
def Turn.Fails (t : Turn) (place : Nat) : Prop :=
  t.Raises place ∨
    ∃ s, t.subTest? = some s ∧ s.parent.place? = some place ∧ s.verdict = some false

theorem run_fails {names : Names} {on sub : String} {body : List Step} {scope : Scope}
    {stage : Stage} {place : Nat} :
    (Turn.mk names (.run on sub body) scope stage).Fails place ↔
      (SubTest.mk on sub body scope stage).parent.place? = some place ∧
        (SubTest.mk on sub body scope stage).verdict = some false := by
  constructor
  · rintro (⟨_, _, step, _⟩ | ⟨s, run, failed⟩)
    · cases step
    · cases run
      exact failed
  · exact fun failed => .inr ⟨_, rfl, failed⟩

theorem Acts.fails {h : Handle} {before after : World} (acts : Acts h before after)
    {e : Happening} {place : Nat} (new : e ∈ World.since before after) :
    e.Fails place ↔ ∃ on message, Handle.place? on = some place ∧ e = .stopped on message := by
  have plainly (plain : e.isPlain = true) :
      e.Fails place ↔ ∃ on message, Handle.place? on = some place ∧ e = .stopped on message := by
    refine iff_of_false (Happening.not_fails plain place) ?_
    rintro ⟨on, message, _, rfl⟩
    cases plain
  rcases acts with plain | ⟨middle, message, plain, rfl⟩
  · exact plainly (plain.since_plain e new)
  · rw [h.fatal_since message plain] at new
    rcases List.mem_append.mp new with earlier | last
    · exact plainly (plain.since_plain e earlier)
    · cases List.mem_singleton.mp last
      constructor
      · intro fails
        exact ⟨h, message, fails, rfl⟩
      · rintro ⟨on, text, same, split⟩
        cases split
        exact same

theorem leaf_fails {names : Names} {on : String} {operation : Operation} {scope : Scope}
    {stage : Stage} {place : Nat} :
    (Turn.mk names (.leaf on operation) scope stage).Fails place ↔
      ∃ e ∈ World.since stage.world (playLeaf on operation scope stage).stage.world,
        e.Fails place := by
  have acts := operation.exec_acts (scope.context on) scope stage
  have played : (Turn.mk names (.leaf on operation) scope stage).played =
      playLeaf on operation scope stage := Turn.played_leaf rfl
  constructor
  · rintro (⟨_, _, _, h, message, known, raised⟩ | ⟨s, run, _⟩)
    · rw [played] at raised
      exact ⟨_, raised, known⟩
    · cases run
  · rintro ⟨e, new, fails⟩
    obtain ⟨h, message, known, rfl⟩ := (acts.fails new).mp fails
    exact .inl ⟨on, operation, rfl, h, message, known, played ▸ new⟩

/-- What stops a test through a handle halts it, and the stop is the last thing that is done. -/
theorem Turn.StopsOn.last {t : Turn} {h : Handle} (stops : t.StopsOn h) :
    ∃ message middle earlier, t.played.halt = some (h.fatal message middle).1 ∧
      World.since t.stage.world t.played.stage.world = earlier ++ [.stopped h message] ∧
      ∀ e ∈ earlier, e.isPlain = true := by
  obtain ⟨on, operation, step, rfl, stops, returns⟩ := stops
  rw [Turn.played_leaf step, playLeaf_halt] at returns ⊢
  obtain ⟨endless, _⟩ | ⟨_, ⟨middle, message, plain, rfl⟩, halt, world⟩ :=
    Operation.exec_stops t.scope stops
  · exact absurd endless returns
  · refine ⟨message, middle, _, halt, ?_, plain.since_plain⟩
    rw [← Handle.fatal_since _ message plain, ← world]
    rfl

theorem Turn.stopsOn_of_stopped {t : Turn} {on : String} {operation : Operation} {h : Handle}
    {message : String} (step : t.step = .leaf on operation)
    (raised : .stopped h message ∈ World.since t.stage.world t.played.stage.world) :
    t.StopsOn h := by
  rw [Turn.played_leaf step] at raised
  by_cases stops : operation.Stops (t.scope.context on) t.stage
  · rcases Operation.exec_stops t.scope stops with ⟨_, same⟩ | ⟨r, stopped, halt, world⟩
    · -- the failure event did not come back, so nothing was done
      have kept := congrArg World.history same
      have grown : (playLeaf on operation t.scope t.stage).stage.world.history =
          [] ++ t.stage.world.history := kept
      rw [World.since_append grown] at raised
      cases raised
    · obtain ⟨middle, text, plain, rfl⟩ := stopped
      have since := (t.scope.context on).handle.fatal_since text plain
      rw [← world] at since
      have last := since ▸ raised
      rcases List.mem_append.mp last with early | last
      · cases plain.since_plain _ early
      · cases List.mem_singleton.mp last
        refine ⟨on, operation, step, rfl, stops, ?_⟩
        rw [Turn.played_leaf step, playLeaf_halt, halt]
        exact fun endless => Handle.fatal_returns _ _ _ (Option.some.inj endless)
  · cases (Operation.exec_plain t.scope stops).since_plain _ raised

/-- A stop is raised on a handle exactly by the steps that stop a test through it. -/
theorem Turn.raises_iff {t : Turn} {place : Nat} :
    t.Raises place ↔ ∃ name, t.StopsOn (.printer name place) := by
  constructor
  · rintro ⟨on, operation, step, h, message, known, raised⟩
    have stops := Turn.stopsOn_of_stopped step raised
    cases h with
    | recorder name => cases known
    | printer name own =>
      cases known
      exact ⟨name, stops⟩
  · rintro ⟨name, stops⟩
    obtain ⟨message, _, _, _, since, _⟩ := stops.last
    obtain ⟨on, operation, step, _⟩ := stops
    refine ⟨on, operation, step, .printer name place, message, rfl, ?_⟩
    rw [since]
    exact List.mem_append_right _ List.mem_cons_self

theorem printers_law : ScopeLaw fun _ scope => ∀ on, ∃ name above,
    (scope.context on).handle = .printer name above :=
  @ScopeLaw.ofKind (fun c => ∃ name above, c.handle = .printer name above)
      fun ⟨name, above, printer⟩ _ handle => by
    rcases handle with same | ⟨sub, w, child⟩
    · exact ⟨name, above, same.trans printer⟩
    · rw [printer] at child
      exact ⟨_, _, child⟩

/-- What makes a handle fail in the history of a play was done by one of its turns. -/
theorem fails_law : PlayLaw (fun _ scope => ∀ on, ∃ name above,
      (scope.context on).handle = .printer name above) fun first ts last =>
    ∀ place, (∃ h ∈ last.world.history, h.Fails place) ↔
      (∃ h ∈ first.world.history, h.Fails place) ∨ ∃ t ∈ ts, t.Fails place where
  toScopeLaw := printers_law
  nil stage place := by simp
  append {first middle last ts us} before behind place := by
    rw [behind place, before place, or_assoc]
    simp only [List.mem_append, or_and_right, exists_or]
  leaf {names scope} on operation stage fits place := by
    obtain ⟨later, grown⟩ := playLeaf_grown on operation scope stage
    have new : World.since stage.world (playLeaf on operation scope stage).stage.world =
        later.reverse := World.since_append grown.symm
    simp only [List.mem_singleton, exists_eq_left, leaf_fails, new, List.mem_reverse, ← grown,
      List.mem_append, or_and_right, exists_or]
    exact or_comm
  run {names scope ts} on sub body stage fits inner place := by
    have closed := SubTest.OnPrinter.closed_fails (s := ⟨on, sub, body, scope, stage⟩) (fits on)
    have opened := SubTest.OnPrinter.opened_history (s := ⟨on, sub, body, scope, stage⟩) (fits on)
    have played := inner place
    simp only [SubTest.opened] at opened
    rw [opened] at played
    simp only [List.mem_cons, or_and_right, exists_or, exists_eq_left, run_fails]
    refine (closed place).trans ?_
    rw [SubTest.played, SubTest.opened, played]
    exact or_right_comm.trans or_assoc

section Occurrences

variable {turn : Turn} {names : Names} {steps : List Step} {scope : Scope} {stage : Stage}

theorem body_lt (occurs : Occurs turn names steps scope stage) {r : SubTest}
    (run : turn.subTest? = some r) : sizeOf r.body < sizeOf steps := by
  induction occurs with
  | here =>
    obtain ⟨names, rfl⟩ := Turn.eq_of_subTest run
    rw [List.cons.sizeOf_spec, Step.run.sizeOf_spec]
    omega
  | inside _ ih =>
    rw [List.cons.sizeOf_spec, Step.run.sizeOf_spec]
    omega
  | later _ _ ih =>
    rw [List.cons.sizeOf_spec]
    omega

/-- A halt that no sub-test takes up ends the play. -/
theorem ends_play (occurs : Occurs turn names steps scope stage) {halt : Halt}
    (ended : turn.played.halt = some halt) (free : halt.caught = false) :
    (playSteps steps scope stage).halt = some halt := by
  induction occurs with
  | here => rw [playSteps_halted ended, ← Turn.played, ended]
  | @inside names on sub body rest scope stage _ ih =>
    have handed : (playStep (.run on sub body) scope stage).halt = some halt := by
      rw [playStep_run, closeRun]
      simp [ih, free]
    rw [playSteps_halted handed, handed]
  | later returned _ ih => rw [playSteps_halt returned, ih]

end Occurrences

namespace SubTest

variable {s : SubTest}

/-- The sub-test is run where flags are told and all handles are printers. -/
structure Sound (s : SubTest) : Prop where
  fits : OnPrinters s.scope s.stage
  told : s.stage.world.Told

theorem Sound.onPrinter (sound : s.Sound) : s.OnPrinter := by
  obtain ⟨name, above, handle, _⟩ := sound.fits.handles s.on
  exact ⟨name, above, handle⟩

theorem Sound.opened (sound : s.Sound) :
    OnPrinters s.opened.scope s.opened.stage ∧ s.opened.stage.world.Told :=
  ⟨sound.fits.openFits s.on s.name, (sound.fits.openKeeps s.on s.name).told sound.told⟩

theorem Sound.turn (sound : s.Sound) {turn : Turn} (member : turn ∈ s.turns) :
    OnPrinters turn.scope turn.stage ∧ turn.stage.world.Told := by
  have here := OnPrinters.stageLaw_keeps.reached (.of_mem member) sound.opened.1
  exact ⟨here.1, here.2.told sound.opened.2⟩

theorem sound_of_turn {turn : Turn} (run : turn.subTest? = some s)
    (fits : OnPrinters turn.scope turn.stage) (told : turn.stage.world.Told) : s.Sound := by
  obtain ⟨names, rfl⟩ := Turn.eq_of_subTest run
  exact ⟨fits, told⟩

theorem Sound.inner (sound : s.Sound) {r : SubTest} (member : r ∈ subTests s.turns) : r.Sound := by
  obtain ⟨turn, among, run⟩ := List.mem_filterMap.mp member
  have here := sound.turn among
  exact sound_of_turn run here.1 here.2

theorem Sound.played (sound : s.Sound) : s.played.stage.world.Told :=
  (OnPrinters.stageLaw_keeps.steps s.body _ _ sound.opened.1).2.told sound.opened.2

theorem Sound.own (sound : s.Sound) :
    s.played.stage.world.failedAt s.place = true ↔ ∃ turn ∈ s.turns, turn.Fails s.place := by
  have printers : ∀ on, ∃ name above, (s.opened.scope.context on).handle = .printer name above := by
    intro on
    obtain ⟨name, above, handle, _⟩ := sound.opened.1.handles on
    exact ⟨name, above, handle⟩
  have all := fails_law.steps s.body .ofBody s.opened.scope s.opened.stage printers s.place
  rw [sound.played s.place]
  -- nothing before the body made the handle fail: its place was taken by no printer yet
  refine all.trans (or_iff_right ?_)
  rw [sound.onPrinter.opened_history, ← sound.told s.place]
  exact fun failed => Nat.lt_irrefl _ (World.lt_of_failedAt failed)

/-- A sub-test is run in the body of another one, from the handle of that one. -/
def Below (s above : SubTest) : Prop :=
  s ∈ subTests above.turns ∧ s.parent.place? = some above.place

/-- A sub-test is doomed when its body is halted, when a stop is raised on its own handle, and when
a sub-test below it is doomed. -/
inductive Doomed : SubTest → Prop
  | halted {s : SubTest} (ended : s.played.halt ≠ none) : Doomed s
  | stopped {s : SubTest} (turn : Turn) (member : turn ∈ s.turns) (raised : turn.Raises s.place) :
      Doomed s
  | inherited {s : SubTest} (r : SubTest) (below : r.Below s) (doomed : Doomed r) : Doomed s

theorem doomed_of_failed (s : SubTest) (sound : s.Sound) (failed : s.verdict = some false) :
    s.Doomed := by
  rw [sound.onPrinter.verdict_eq, Played.verdict_eq_false] at failed
  rcases failed with ⟨_, flagged⟩ | ⟨halt, ended, _⟩
  · obtain ⟨turn, member, raised | ⟨r, run, own, below⟩⟩ := sound.own.mp flagged
    · exact .stopped turn member raised
    · -- the sub-test that failed has a smaller body
      have inner : r ∈ subTests s.turns := List.mem_filterMap.mpr ⟨turn, member, run⟩
      have smaller : sizeOf r.body < sizeOf s.body := body_lt (.of_mem member) run
      exact .inherited r ⟨inner, own⟩ (doomed_of_failed r (sound.inner inner) below)
  · exact .halted (ended ▸ Option.some_ne_none halt)
termination_by sizeOf s.body

theorem OnPrinter.closed_halt (on : s.OnPrinter) (lost : s.verdict = none) :
    ∃ halt, s.closed.halt = some halt ∧ halt.caught = false := by
  rw [on.verdict_eq] at lost
  obtain ⟨name, above, parent⟩ := on
  rw [closed_eq parent, lost]
  exact Played.verdict_eq_none.mp lost

theorem Sound.inner_returned (sound : s.Sound) (returned : s.verdict ≠ none) {r : SubTest}
    (member : r ∈ subTests s.turns) : r.verdict ≠ none := by
  intro lost
  obtain ⟨halt, ended, free⟩ := (sound.inner member).onPrinter.closed_halt lost
  obtain ⟨turn, among, run⟩ := List.mem_filterMap.mp member
  obtain ⟨names, rfl⟩ := Turn.eq_of_subTest run
  have body := ends_play (.of_mem among) ended free
  rw [sound.onPrinter.verdict_eq] at returned
  exact returned (Played.verdict_eq_none.mpr ⟨halt, body, free⟩)

theorem Sound.failed_of_fails (sound : s.Sound) (returned : s.verdict ≠ none) {turn : Turn}
    (member : turn ∈ s.turns) (fails : turn.Fails s.place) : s.verdict = some false := by
  have flagged := sound.own.mpr ⟨turn, member, fails⟩
  cases verdict : s.verdict with
  | none => exact absurd verdict returned
  | some passed =>
    cases passed with
    | false => rfl
    | true =>
      rw [sound.onPrinter.verdict_eq, Played.verdict_eq_true, flagged] at verdict
      cases verdict.2

theorem Doomed.failed (doomed : s.Doomed) (sound : s.Sound) (returned : s.verdict ≠ none) :
    s.verdict = some false := by
  induction doomed with
  | @halted s ended =>
    obtain ⟨halt, same⟩ := Option.ne_none_iff_exists'.mp ended
    rw [sound.onPrinter.verdict_eq] at returned ⊢
    cases caught : halt.caught with
    | true => exact Played.verdict_eq_false.mpr (.inr ⟨halt, same, caught⟩)
    | false => exact absurd (Played.verdict_eq_none.mpr ⟨halt, same, caught⟩) returned
  | @stopped s turn member raised => exact sound.failed_of_fails returned member (.inl raised)
  | @inherited s r below _ ih =>
    obtain ⟨member, own⟩ := below
    have failed := ih (sound.inner member) (sound.inner_returned returned member)
    obtain ⟨turn, among, run⟩ := List.mem_filterMap.mp member
    exact sound.failed_of_fails returned among (.inr ⟨r, run, own, failed⟩)

end SubTest
end NodeHarness
