import NodeHarness.Proofs.FailureEvent
import NodeHarness.Proofs.Matching
import NodeHarness.Proofs.PrinterVerdicts

/-! Sub-tests of recorders and what stands in their journal. A sub-test is played twice, from stages
whose journals have nothing in common: the same is done, because a verdict looks only at what came
behind the start of its sub-test. Two sub-tests that neither register listeners nor call one nor
read a flag can be run in either order. -/
namespace NodeHarness

mutual

/-- What was seen of a step without what it tells of the whole journal. -/
def Trace.apart : Trace → Trace
  | .leaf notes answer lines => .leaf notes (answer.map Answer.apart) lines
  | .run entered body notes verdict =>
    .run entered (Trace.apartAll body) notes
      (verdict.map fun (passed, _) => (passed, .recorded 0 [] 0))

def Trace.apartAll : List Trace → List Trace
  | [] => []
  | t :: rest => t.apart :: Trace.apartAll rest

end

theorem Trace.apartAll_append (ts us : List Trace) :
    apartAll (ts ++ us) = apartAll ts ++ apartAll us := by
  induction ts with
  | nil => simp [apartAll]
  | cons t rest ih => simp [apartAll, ih]

/-- The same was seen and done in two plays, and they go on alike. -/
structure Played.Matches (flagged : Bool) (j k : Journal) (p q : Played) : Prop where
  traces : Trace.apartAll q.traces = Trace.apartAll p.traces
  scope : q.scope = p.scope
  stage : p.stage.Matches flagged j k q.stage
  halt : q.halt = p.halt

def Scope.OnRecorders (scope : Scope) : Prop :=
  ∀ on, ∃ name, (scope.context on).handle = .recorder name

theorem Scope.onRecorders_law : ScopeLaw fun _ scope => scope.OnRecorders :=
  @ScopeLaw.ofKind (fun c => ∃ name, c.handle = .recorder name) fun ⟨name, recorder⟩ _ handle => by
    rcases handle with same | ⟨sub, w, child⟩
    · exact ⟨name, same.trans recorder⟩
    · rw [recorder] at child
      exact ⟨_, child⟩

namespace Scope.OnRecorders

variable {scope : Scope}

theorem handle (recorders : scope.OnRecorders) (on sub : String) (stage : Stage) :
    ∃ name, (openRun on sub scope stage).handle = .recorder name := by
  obtain ⟨above, parent⟩ := recorders on
  simp only [openRun, parent]
  exact ⟨_, rfl⟩

theorem opened (recorders : scope.OnRecorders) (on sub : String) (stage : Stage) :
    (openRun on sub scope stage).scope.OnRecorders :=
  @ScopeLaw.openScope _ onRecorders_law .ofBody scope on sub stage recorders

theorem after (recorders : scope.OnRecorders) (step : Step) (stage : Stage) :
    (playStep step scope stage).scope.OnRecorders :=
  @ScopeLaw.after _ onRecorders_law .ofBody scope recorders step stage

end Scope.OnRecorders

/-- The step of a turn, and the contexts it can name. -/
def Turn.move (t : Turn) : Step × Scope := (t.step, t.scope)

def Turn.independent (t : Turn) : Bool :=
  t.operation?.all (Operation.independent t.stage.world.signals)

section Plays

variable {flagged : Bool} {j k : Journal} {a b : Stage} {scope : Scope}

theorem Done.Matches.halt {p q : Done} (same : p.Matches flagged j k q) : q.halt = p.halt := by
  have told (done : Done) :
      Done.halt { done with answer := done.answer.map Answer.apart } = done.halt := by
    unfold Done.halt
    cases done.answer <;> rfl
  rw [← told q, ← told p, Done.halt, Done.halt, same.answer]

theorem Stage.Matches.clearNotes (same : a.Matches flagged j k b) :
    a.clearNotes.Matches flagged j k b.clearNotes :=
  ⟨⟨same.world.patience, same.world.table, same.world.flags, rfl, same.world.grown⟩, same.names⟩

theorem drop_grown {α : Type} (start gained later : List α) :
    (start ++ later).drop (start ++ gained).length = later.drop gained.length := by
  rw [List.length_append, List.drop_length_add_append]

/-- What came between two moments is the same, though the journals before have nothing in common. -/
theorem Matches.between {v w v' w' : World} (first : NodeHarness.Matches flagged j k v w)
    (later : NodeHarness.Matches flagged j k v' w') :
    w'.journal.lines.drop w.journal.lines.length = v'.journal.lines.drop v.journal.lines.length ∧
      w'.journal.fatals.drop w.journal.fatals.length =
        v'.journal.fatals.drop v.journal.fatals.length := by
  obtain ⟨gained, here, there⟩ := first.grown
  obtain ⟨more, behind, behindToo⟩ := later.grown
  simp only [here, there, behind, behindToo, Journal.append, drop_grown, and_self]

theorem playLeaf_matches (on : String) (operation : Operation) (recorders : scope.OnRecorders)
    (same : a.Matches flagged j k b)
    (calm : flagged = true ∨ operation.independent a.world.signals = true) :
    (playLeaf on operation scope a).Matches flagged j k (playLeaf on operation scope b) := by
  have done := exec_matches operation (scope.context on) (recorders on) scope same calm
  refine ⟨?_, done.scope, done.stage.clearNotes, ?_⟩
  · simp only [playLeaf, Trace.apartAll, Trace.apart, World.taken, done.answer,
      done.stage.world.notes, (same.world.between done.stage.world).1]
  · rw [playLeaf_halt, playLeaf_halt, done.halt]

theorem openRun_matches (on sub : String) (recorders : scope.OnRecorders)
    (same : a.Matches flagged j k b) :
    (openRun on sub scope b).handle = (openRun on sub scope a).handle ∧
      (openRun on sub scope b).scope = (openRun on sub scope a).scope ∧
      (openRun on sub scope a).stage.Matches flagged j k (openRun on sub scope b).stage := by
  obtain ⟨name, handle⟩ := recorders on
  simp only [openRun, handle]
  exact ⟨rfl, rfl, same⟩

/-- The verdict on a recorder's sub-test, before whose body `before` fatal stops were there. -/
def Played.recorded (body : Played) (name : String) (before : Nat) : Option Bool :=
  match body.halt with
  | none => some (!(body.stage.world.journal.fatals.drop before).any (Handle.concerns name))
  | some halt => if halt.caught then some false else none

theorem closeRun_recorder (parent : Handle) (name : String) (before : Nat) (scope : Scope)
    (body : Played) :
    closeRun parent (.recorder name) before scope body =
      match body.recorded name before with
      | none => ⟨[.run name body.traces [] none], scope, body.stage, body.halt⟩
      | some passed =>
        let w := body.stage.world.returned parent (.recorder name) passed
        ⟨[.run name body.traces w.taken (some (passed, parent.facts w))], scope,
          (body.stage.withWorld w).clearNotes, none⟩ := by
  unfold closeRun Played.recorded
  cases ended : body.halt with
  | none => rfl
  | some halt => cases caught : halt.caught <;> simp [Handle.conclude, Handle.name, caught]

theorem closeRun_matches (parent : Handle) (name : String) {p q : Played}
    (opened : a.Matches flagged j k b) (body : p.Matches flagged j k q) :
    (closeRun parent (.recorder name) a.world.journal.fatals.length scope p).Matches flagged j k
      (closeRun parent (.recorder name) b.world.journal.fatals.length scope q) := by
  have verdict : q.recorded name b.world.journal.fatals.length =
      p.recorded name a.world.journal.fatals.length := by
    rw [Played.recorded, Played.recorded, body.halt, (opened.world.between body.stage.world).2]
  have notes : q.stage.world.taken = p.stage.world.taken :=
    congrArg List.reverse body.stage.world.notes
  rw [closeRun_recorder, closeRun_recorder, verdict]
  cases p.recorded name a.world.journal.fatals.length with
  | none =>
    refine ⟨?_, rfl, body.stage, body.halt⟩
    simp only [Trace.apartAll, Trace.apart, body.traces]
  | some passed =>
    refine ⟨?_, rfl, ⟨⟨body.stage.world.patience, body.stage.world.table, body.stage.world.flags,
      rfl, body.stage.world.grown⟩, body.stage.names⟩, rfl⟩
    simp only [Trace.apartAll, Trace.apart, body.traces]
    exact congrArg (fun notes => [Trace.run name _ notes _]) notes

theorem playStep_run_matches (on sub : String) (body : List Step) (recorders : scope.OnRecorders)
    (same : a.Matches flagged j k b)
    (inner : (playSteps body (openRun on sub scope a).scope (openRun on sub scope a).stage).Matches
      flagged j k (playSteps body (openRun on sub scope b).scope (openRun on sub scope b).stage)) :
    (playStep (.run on sub body) scope a).Matches flagged j k
      (playStep (.run on sub body) scope b) := by
  obtain ⟨handle, _, opened⟩ := openRun_matches on sub recorders same
  obtain ⟨name, recorder⟩ := recorders.handle on sub a
  rw [playStep_run, playStep_run, handle, recorder]
  exact closeRun_matches _ name opened inner

mutual

theorem playStep_matches : ∀ (step : Step) (names : Names) (scope : Scope) {a b : Stage},
    scope.OnRecorders → a.Matches flagged j k b →
    (flagged = true ∨ ∀ turn ∈ turnsOfStep names step scope a, turn.independent = true) →
      (playStep step scope a).Matches flagged j k (playStep step scope b) ∧
        (turnsOfStep names step scope b).map Turn.move =
          (turnsOfStep names step scope a).map Turn.move
  | .leaf on operation, names, scope, a, b, recorders, same, calm => by
    rw [playStep, playStep, turnsOfStep, turnsOfStep]
    refine ⟨playLeaf_matches on operation recorders same (calm.imp_right fun all => ?_), rfl⟩
    exact all _ (by rw [turnsOfStep]; exact List.mem_cons_self)
  | .run on sub body, names, scope, a, b, recorders, same, calm => by
    obtain ⟨handle, scopes, opened⟩ := openRun_matches on sub recorders same
    have inner := playSteps_matches body (names.inside on (openRun on sub scope a).handle.name)
      (openRun on sub scope a).scope (recorders.opened on sub a) opened
      (calm.imp_right fun all turn member => all turn (by
        rw [turnsOfStep]
        exact List.mem_cons_of_mem _ member))
    refine ⟨playStep_run_matches on sub body recorders same (scopes ▸ inner.1), ?_⟩
    rw [turnsOfStep, turnsOfStep]
    simp only [handle, scopes, List.map_cons, inner.2]
    rfl

/-- From stages that match, the same steps are played to the same effect. -/
theorem playSteps_matches : ∀ (steps : List Step) (names : Names) (scope : Scope) {a b : Stage},
    scope.OnRecorders → a.Matches flagged j k b →
    (flagged = true ∨ ∀ turn ∈ turnsOf names steps scope a, turn.independent = true) →
      (playSteps steps scope a).Matches flagged j k (playSteps steps scope b) ∧
        (turnsOf names steps scope b).map Turn.move = (turnsOf names steps scope a).map Turn.move
  | [], names, scope, a, b, recorders, same, calm => by
    rw [playSteps, playSteps, turnsOf, turnsOf]
    exact ⟨⟨rfl, rfl, same, rfl⟩, rfl⟩
  | step :: rest, names, scope, a, b, recorders, same, calm => by
    have first := playStep_matches step names scope recorders same
      (calm.imp_right fun all turn member => all turn (mem_turnsOf_cons.mpr (.inl member)))
    rw [playSteps, playSteps, turnsOf, turnsOf, first.1.halt]
    cases ended : (playStep step scope a).halt with
    | some halt =>
      refine ⟨⟨first.1.traces, first.1.scope, first.1.stage, rfl⟩, ?_⟩
      simp only [List.append_nil, first.2]
    | none =>
      have later := playSteps_matches rest (names.after step) (playStep step scope a).scope
        (recorders.after step a) first.1.stage
        (calm.imp_right fun all turn member =>
          all turn (mem_turnsOf_cons.mpr (.inr ⟨ended, member⟩)))
      simp only [first.1.scope]
      refine ⟨⟨?_, later.1.scope, later.1.stage, later.1.halt⟩, ?_⟩
      · simp only [Trace.apartAll_append, first.1.traces, later.1.traces]
      · simp only [List.map_append, first.2, later.2]

end

end Plays

/-- Two stages with the same dispatcher and the same flags. Their journals may differ in every way,
and so may what was done before. -/
structure Stage.Agrees (a b : Stage) : Prop where
  patience : b.world.patience = a.world.patience
  table : b.world.signals.table = a.world.signals.table
  flags : b.world.signals.flags = a.world.signals.flags
  flagNames : b.flagNames = a.flagNames
  notes : b.world.notes = a.world.notes

theorem Stage.Agrees.matches {a b : Stage} (agrees : a.Agrees b) :
    a.Matches true a.world.journal b.world.journal b :=
  ⟨⟨agrees.patience, agrees.table, fun _ => agrees.flags, agrees.notes, .empty,
    (Journal.append_empty _).symm, (Journal.append_empty _).symm⟩, fun _ => agrees.flagNames⟩

theorem Stage.Matches.agrees {a b : Stage} {j k : Journal} (same : a.Matches true j k b) :
    a.Agrees b :=
  ⟨same.world.patience, same.world.table, same.world.flags rfl, same.names rfl, same.world.notes⟩

namespace SubTest

/-- Two sub-tests give the same, and add the same to the journals that they find. -/
structure SameOutcome (s t : SubTest) : Prop where
  verdict : t.verdict = s.verdict
  moves : t.turns.map Turn.move = s.turns.map Turn.move
  seen : Trace.apartAll t.closed.traces = Trace.apartAll s.closed.traces
  halt : t.closed.halt = s.closed.halt
  appended : ∃ gained, s.closed.stage.world.journal = s.stage.world.journal.append gained ∧
    t.closed.stage.world.journal = t.stage.world.journal.append gained

def step (s : SubTest) : Step := .run s.on s.name s.body

/-- The sub-test behind another one. -/
def behind (s other : SubTest) : SubTest := { s with stage := other.closed.stage }

/-- It registers nothing, calls no listener and reads no flag. -/
def Independent (s : SubTest) : Prop := ∀ turn ∈ s.turns, turn.independent = true

/-- Two sub-tests in either order: each gives what it gives alone. -/
structure EitherOrder (x y : SubTest) : Prop where
  first : x.SameOutcome (x.behind y)
  second : y.SameOutcome (y.behind x)
  both : x.closed.halt = none → y.closed.halt = none →
    ∃ (seenX seenY : Trace) (gainedX gainedY : Journal),
      let xy := playSteps [x.step, y.step] x.scope x.stage
      let yx := playSteps [y.step, x.step] x.scope x.stage
      xy.halt = none ∧ yx.halt = none ∧
        Trace.apartAll xy.traces = [seenX, seenY] ∧ Trace.apartAll yx.traces = [seenY, seenX] ∧
        xy.stage.world.journal = (x.stage.world.journal.append gainedX).append gainedY ∧
        yx.stage.world.journal = (x.stage.world.journal.append gainedY).append gainedX

section Outcomes

variable {s : SubTest}

theorem closed_traces (s : SubTest) : ∃ entered body notes ended,
    s.closed.traces = [.run entered body notes ended] ∧ s.verdict = ended.map Prod.fst := by
  have seen : ∃ entered body notes ended, s.closed.traces = [.run entered body notes ended] := by
    rw [closed, playStep_run, closeRun]
    split
    · split <;> exact ⟨_, _, _, _, rfl⟩
    · exact ⟨_, _, _, _, rfl⟩
  obtain ⟨entered, body, notes, ended, traces⟩ := seen
  refine ⟨entered, body, notes, ended, traces, ?_⟩
  rw [closed] at traces
  rw [verdict, traces]

theorem verdict_seen {s t : SubTest}
    (seen : Trace.apartAll t.closed.traces = Trace.apartAll s.closed.traces) :
    t.verdict = s.verdict := by
  obtain ⟨entered, body, notes, ended, here, verdict⟩ := s.closed_traces
  obtain ⟨enteredToo, bodyToo, notesToo, endedToo, there, verdictToo⟩ := t.closed_traces
  simp only [here, there, Trace.apartAll, Trace.apart, List.cons.injEq, Trace.run.injEq] at seen
  have passed := congrArg (Option.map Prod.fst) seen.1.2.2.2
  rw [verdict, verdictToo]
  rw [Option.map_map, Option.map_map] at passed
  exact passed

theorem sameOutcome {flagged : Bool} {stage : Stage} (recorders : s.scope.OnRecorders)
    (same : s.stage.Matches flagged s.stage.world.journal stage.world.journal stage)
    (calm : flagged = true ∨ s.Independent) :
    s.SameOutcome { s with stage } ∧ s.closed.stage.Matches flagged s.stage.world.journal
      stage.world.journal (SubTest.closed { s with stage }).stage := by
  obtain ⟨_, scopes, opened⟩ := openRun_matches s.on s.name recorders same
  obtain ⟨inner, moves⟩ := playSteps_matches s.body .ofBody s.opened.scope
    (recorders.opened s.on s.name s.stage) opened calm
  have played := playStep_run_matches s.on s.name s.body recorders same (scopes ▸ inner)
  refine ⟨⟨verdict_seen played.traces, ?_, played.traces, played.halt, played.stage.world.grown⟩,
    played.stage⟩
  change (turnsOf .ofBody s.body (openRun s.on s.name s.scope stage).scope _).map Turn.move = _
  rw [scopes]
  exact moves

end Outcomes

end SubTest

/-- Turns that are independent leave alone what is registered. -/
theorem unregistered_law : PlayLaw (fun _ scope => scope.OnRecorders) fun first ts last =>
    (∀ turn ∈ ts, turn.independent = true) →
      last.world.patience = first.world.patience ∧
        last.world.signals.table = first.world.signals.table where
  nil _ _ := ⟨rfl, rfl⟩
  append before behind all := by
    obtain ⟨patience, table⟩ := before fun turn member => all turn (List.mem_append_left _ member)
    obtain ⟨later, behindTable⟩ :=
      behind fun turn member => all turn (List.mem_append_right _ member)
    exact ⟨later.trans patience, behindTable.trans table⟩
  toScopeLaw := Scope.onRecorders_law
  leaf {names scope} on operation stage _ all := by
    have independent : operation.independent stage.world.signals = true :=
      all _ List.mem_cons_self
    have core := operation.exec_core (scope.context on) scope stage
    exact ⟨congrArg Prod.fst core, (congrArg (fun core => core.2.table) core).trans
      (operation.signalsBehind_table stage independent)⟩
  run {names scope ts} on sub body stage recorders inner all := by
    have kept := inner fun turn member => all turn (List.mem_cons_of_mem _ member)
    obtain ⟨above, parent⟩ := recorders on
    obtain ⟨name, recorder⟩ := recorders.handle on sub stage
    have opened : (openRun on sub scope stage).stage.world = stage.world := by
      simp only [openRun, parent]
      rfl
    have closed := closeRun_core (scope.context on).handle (.recorder name)
      (openRun on sub scope stage).stage.world.journal.fatals.length scope
      (playSteps body (openRun on sub scope stage).scope (openRun on sub scope stage).stage)
    rw [playStep_run, recorder]
    rw [opened] at kept
    exact ⟨(congrArg Prod.fst closed).trans kept.1,
      (congrArg (fun core => core.2.table) closed).trans kept.2⟩

namespace SubTest

variable {x y : SubTest}

theorem Independent.kept (independent : x.Independent) (recorders : x.scope.OnRecorders) :
    x.closed.stage.world.patience = x.stage.world.patience ∧
      x.closed.stage.world.signals.table = x.stage.world.signals.table := by
  have body := unregistered_law.steps x.body .ofBody x.opened.scope x.opened.stage
    (recorders.opened x.on x.name x.stage)
  have law := @PlayLaw.run _ _ unregistered_law .ofBody x.scope x.turns x.on x.name x.body x.stage
    recorders body
  refine law fun turn member => ?_
  rcases List.mem_cons.mp member with rfl | inside
  · rfl
  · exact independent turn inside

/-- Behind an independent sub-test another one gives what it gives without it. -/
theorem Independent.behind (first : x.Independent) (later : y.Independent)
    (recorders : x.scope.OnRecorders) (place : y.scope = x.scope ∧ y.stage = x.stage)
    (taken : x.stage.world.notes = []) : y.SameOutcome (y.behind x) := by
  obtain ⟨scope, stage⟩ := place
  obtain ⟨patience, table⟩ := first.kept recorders
  have behind : x.closed.stage.world.notes = [] :=
    (taken_law.step (.run x.on x.name x.body) x.scope x.stage trivial).2 taken
  have same : y.stage.Matches false y.stage.world.journal x.closed.stage.world.journal
      x.closed.stage := by
    rw [stage]
    exact ⟨⟨patience, table, nofun, behind.trans taken.symm, .empty,
      (Journal.append_empty _).symm, (Journal.append_empty _).symm⟩, nofun⟩
  exact (sameOutcome (scope ▸ recorders) same (.inr later)).1

theorem playSteps_pair (returned : x.closed.halt = none) (scope : y.scope = x.scope) :
    playSteps [x.step, y.step] x.scope x.stage =
      ⟨x.closed.traces ++ (y.behind x).closed.traces, (y.behind x).closed.scope,
        (y.behind x).closed.stage, (y.behind x).closed.halt⟩ := by
  have first : playStep x.step x.scope x.stage = x.closed := rfl
  have names : x.closed.scope = y.scope := by
    rw [closed, playStep_run, closeRun_scope, scope]
  rw [playSteps, first]
  simp only [returned, playSteps_singleton, names]
  rfl

theorem eitherOrder (first : x.Independent) (later : y.Independent)
    (recorders : x.scope.OnRecorders) (scope : y.scope = x.scope) (stage : y.stage = x.stage)
    (taken : x.stage.world.notes = []) : x.EitherOrder y := by
  have second := first.behind later recorders ⟨scope, stage⟩ taken
  have swapped := later.behind first (scope ▸ recorders) ⟨scope.symm, stage.symm⟩ (stage ▸ taken)
  refine ⟨swapped, second, fun returned returnedToo => ?_⟩
  obtain ⟨gainedX, aloneX, behindX⟩ := swapped.appended
  obtain ⟨gainedY, aloneY, behindY⟩ := second.appended
  obtain ⟨enteredX, bodyX, notesX, endedX, seenX, _⟩ := x.closed_traces
  obtain ⟨enteredY, bodyY, notesY, endedY, seenY, _⟩ := y.closed_traces
  have here := playSteps_pair returned scope
  have there := playSteps_pair returnedToo scope.symm
  rw [scope, stage] at there
  refine ⟨(Trace.run enteredX bodyX notesX endedX).apart,
    (Trace.run enteredY bodyY notesY endedY).apart, gainedX, gainedY, ?_⟩
  simp only [here, there, Trace.apartAll_append, second.seen, swapped.seen, seenX, seenY,
    Trace.apartAll]
  refine ⟨second.halt.trans returnedToo, swapped.halt.trans returned, rfl, rfl, ?_, ?_⟩
  · exact behindY.trans (congrArg (Journal.append · gainedY) aloneX)
  · rw [stage] at aloneY
    exact behindX.trans (congrArg (Journal.append · gainedX) aloneY)

end SubTest

/-- What a recorder's sub-test gives and adds to the journal does not depend on what the journal
holds, and two that are independent of what is registered and of flags can be run in either order.
No note waits where a sub-test begins (`taken_law`). -/
theorem recorder_subTests_independent (scope : Scope) (recorders : scope.OnRecorders) :
    (∀ s : SubTest, s.scope = scope → ∀ stage, s.stage.Agrees stage →
      s.SameOutcome { s with stage } ∧
        s.closed.stage.Agrees (SubTest.closed { s with stage }).stage) ∧
    ∀ x y : SubTest, x.scope = scope → y.scope = scope → y.stage = x.stage →
      x.stage.world.notes = [] → x.Independent → y.Independent → x.EitherOrder y := by
  constructor
  · rintro s rfl stage agrees
    obtain ⟨outcome, behind⟩ := SubTest.sameOutcome recorders agrees.matches (.inl rfl)
    exact ⟨outcome, behind.agrees⟩
  · rintro x y rfl scope stage taken first later
    exact SubTest.eitherOrder first later recorders scope stage taken

/-- A sub-test that logs a line. -/
def oneLine : SubTest where
  on := "root"
  name := "a"
  body := [.leaf "t" (.say .plain "x")]
  scope := .ofRoot (.root .native (.recorder "root"))
  stage := ⟨.start 0, []⟩

/-- A sub-test that stops itself past its context. -/
def oneStop : SubTest := { oneLine with name := "b", body := [.leaf "t" (.requireTrue false "m")] }

/-- A journal with stops of the sub-test `root/a` and of one below it. -/
def oldStops : Stage :=
  ⟨{ World.start 0 with journal := ⟨[], [⟨"root/a", "old"⟩, ⟨"root/a/b", "old"⟩], 3⟩ }, []⟩

/-- It passes for all the stops that have its name, and in either order with one that fails. -/
theorem oneLine_passes :
    SubTest.verdict { oneLine with stage := oldStops } = some true ∧
      oneLine.EitherOrder oneStop := by
  have recorders : oneLine.scope.OnRecorders := fun on =>
    ⟨"root", congrArg Context.handle (Scope.context_ofRoot _ on)⟩
  obtain ⟨alone, order⟩ := recorder_subTests_independent oneLine.scope recorders
  obtain ⟨outcome, _⟩ := alone oneLine rfl oldStops ⟨rfl, rfl, rfl, rfl, rfl⟩
  refine ⟨outcome.verdict.trans rfl, ?_⟩
  exact order oneLine oneStop rfl rfl rfl rfl (List.all_eq_true.mp rfl) (List.all_eq_true.mp rfl)

end NodeHarness
