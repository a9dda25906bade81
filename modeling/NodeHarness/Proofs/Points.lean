import NodeHarness.Proofs.Turns

/-! What holds at every point of a play. Where leaves, and the opening and closing of sub-tests,
keep what fits a scope to a stage and let the stage grow, every turn of a play finds a stage that
fits its scope and has grown from the first one. -/
namespace NodeHarness

theorem Turn.played_leaf {turn : Turn} {on : String} {operation : Operation}
    (step : turn.step = .leaf on operation) :
    turn.played = playLeaf on operation turn.scope turn.stage := by
  rw [Turn.played, step, playStep]

/-- The turn is one of those of a play: it is the first one, stands in the body of a sub-test that
is run first, or comes behind a first step that returned. -/
inductive Occurs (turn : Turn) : Names → List Step → Scope → Stage → Prop
  | here {rest : List Step} : Occurs turn turn.names (turn.step :: rest) turn.scope turn.stage
  | inside {names : Names} {on sub : String} {body rest : List Step} {scope : Scope}
      {stage : Stage} :
      Occurs turn (names.inside on (openRun on sub scope stage).handle.name) body
        (openRun on sub scope stage).scope (openRun on sub scope stage).stage →
      Occurs turn names (.run on sub body :: rest) scope stage
  | later {names : Names} {step : Step} {rest : List Step} {scope : Scope} {stage : Stage} :
      (playStep step scope stage).halt = none →
      Occurs turn (names.after step) rest (playStep step scope stage).scope
        (playStep step scope stage).stage →
      Occurs turn names (step :: rest) scope stage

mutual

theorem occurs_step : ∀ (step : Step) (rest : List Step) (names : Names) (scope : Scope)
    (stage : Stage) (turn : Turn), turn ∈ turnsOfStep names step scope stage →
      Occurs turn names (step :: rest) scope stage
  | .leaf on operation, rest, names, scope, stage, turn, member => by
    rw [turnsOfStep] at member
    rw [List.mem_singleton.mp member]
    exact .here
  | .run on sub body, rest, names, scope, stage, turn, member => by
    rw [turnsOfStep] at member
    rcases List.mem_cons.mp member with rfl | member
    · exact .here
    · exact .inside (occurs_of_mem body _ _ _ turn member)

theorem occurs_of_mem : ∀ (steps : List Step) (names : Names) (scope : Scope) (stage : Stage)
    (turn : Turn), turn ∈ turnsOf names steps scope stage → Occurs turn names steps scope stage
  | [], names, scope, stage, turn, member => by
    rw [turnsOf] at member
    cases member
  | step :: rest, names, scope, stage, turn, member => by
    rcases mem_turnsOf_cons.mp member with member | ⟨ended, member⟩
    · exact occurs_step step rest names scope stage turn member
    · exact .later ended (occurs_of_mem rest _ _ _ turn member)

end

theorem Occurs.of_mem {turn : Turn} {names : Names} {steps : List Step} {scope : Scope}
    {stage : Stage} (member : turn ∈ turnsOf names steps scope stage) :
    Occurs turn names steps scope stage := occurs_of_mem steps names scope stage turn member

theorem head_mem (turn : Turn) :
    turn ∈ turnsOfStep turn.names turn.step turn.scope turn.stage := by
  obtain ⟨names, step, scope, stage⟩ := turn
  cases step <;> (rw [turnsOfStep]; exact List.mem_cons_self)

theorem Occurs.mem {turn : Turn} {names : Names} {steps : List Step} {scope : Scope}
    {stage : Stage} (occurs : Occurs turn names steps scope stage) :
    turn ∈ turnsOf names steps scope stage := by
  induction occurs with
  | here => exact mem_turnsOf_cons.mpr (.inl (head_mem turn))
  | inside _ ih =>
    refine mem_turnsOf_cons.mpr (.inl ?_)
    rw [turnsOfStep]
    exact List.mem_cons_of_mem _ ih
  | later returned _ ih => exact mem_turnsOf_cons.mpr (.inr ⟨returned, ih⟩)

section Cons

variable {step : Step} {rest : List Step} {scope : Scope} {stage : Stage} {halt : Halt}

theorem playSteps_halted (ended : (playStep step scope stage).halt = some halt) :
    playSteps (step :: rest) scope stage = playStep step scope stage := by
  rw [playSteps]
  simp only [ended]
  rw [← ended]

theorem playSteps_stage (ended : (playStep step scope stage).halt = none) :
    (playSteps (step :: rest) scope stage).stage =
      (playSteps rest (playStep step scope stage).scope
        (playStep step scope stage).stage).stage := by
  rw [playSteps]
  simp only [ended]

theorem playSteps_halt (ended : (playStep step scope stage).halt = none) :
    (playSteps (step :: rest) scope stage).halt =
      (playSteps rest (playStep step scope stage).scope
        (playStep step scope stage).stage).halt := by
  rw [playSteps]
  simp only [ended]

theorem playSteps_singleton : playSteps [step] scope stage = playStep step scope stage := by
  cases ended : (playStep step scope stage).halt with
  | some halt => rw [playSteps_halted ended]
  | none =>
    rw [playSteps]
    simp only [ended, playSteps, List.append_nil]
    rw [← ended]

end Cons

def closing (on sub : String) (scope : Scope) (stage : Stage) (body : Played) : Played :=
  closeRun (scope.context on).handle (openRun on sub scope stage).handle
    (openRun on sub scope stage).stage.world.journal.fatals.length scope body

/-- `Fits` relates scopes and stages, and `Grows` a stage to what it becomes. A sub-test is closed
in the scope in which it was opened, which still fits the stage that grew in between. -/
structure StageLaw (Fits : Scope → Stage → Prop) (Grows : Stage → Stage → Prop) : Prop where
  refl : ∀ stage, Grows stage stage
  trans : ∀ {first middle last}, Grows first middle → Grows middle last → Grows first last
  kept : ∀ {scope stage later}, Fits scope stage → Grows stage later → Fits scope later
  leafFits : ∀ {scope stage} on operation, Fits scope stage →
    Fits (playLeaf on operation scope stage).scope (playLeaf on operation scope stage).stage
  leafGrows : ∀ {scope stage} on operation, Fits scope stage →
    Grows stage (playLeaf on operation scope stage).stage
  openFits : ∀ {scope stage} on sub, Fits scope stage →
    Fits (openRun on sub scope stage).scope (openRun on sub scope stage).stage
  openGrows : ∀ {scope stage} on sub, Fits scope stage →
    Grows stage (openRun on sub scope stage).stage
  closeGrows : ∀ on sub scope stage (body : Played), Fits scope body.stage →
    Grows body.stage (closing on sub scope stage body).stage

section Law

variable {Fits : Scope → Stage → Prop} {Grows : Stage → Stage → Prop}

mutual

theorem StageLaw.step (law : StageLaw Fits Grows) : ∀ (step : Step) (scope : Scope)
    (stage : Stage), Fits scope stage →
      Fits (playStep step scope stage).scope (playStep step scope stage).stage ∧
        Grows stage (playStep step scope stage).stage
  | .leaf on operation, scope, stage, fits => by
    rw [playStep]
    exact ⟨law.leafFits on operation fits, law.leafGrows on operation fits⟩
  | .run on sub body, scope, stage, fits => by
    have opened := law.openGrows on sub fits
    have played := law.steps body _ _ (law.openFits on sub fits)
    have behind := law.trans opened played.2
    have closed := law.trans behind (law.closeGrows on sub scope stage _ (law.kept fits behind))
    rw [playStep_run]
    exact ⟨closeRun_scope _ _ _ _ _ ▸ law.kept fits closed, closed⟩

theorem StageLaw.steps (law : StageLaw Fits Grows) : ∀ (steps : List Step) (scope : Scope)
    (stage : Stage), Fits scope stage →
      Fits (playSteps steps scope stage).scope (playSteps steps scope stage).stage ∧
        Grows stage (playSteps steps scope stage).stage
  | [], scope, stage, fits => by
    rw [playSteps]
    exact ⟨fits, law.refl stage⟩
  | step :: rest, scope, stage, fits => by
    have first := law.step step scope stage fits
    rw [playSteps]
    cases ended : (playStep step scope stage).halt with
    | some halt => simpa only [ended] using first
    | none =>
      have later := law.steps rest _ _ first.1
      exact ⟨later.1, law.trans first.2 later.2⟩

end

variable {turn : Turn} {names : Names} {steps : List Step} {scope : Scope} {stage : Stage}

theorem StageLaw.reached (law : StageLaw Fits Grows) (occurs : Occurs turn names steps scope stage)
    (fits : Fits scope stage) : Fits turn.scope turn.stage ∧ Grows stage turn.stage := by
  induction occurs with
  | here => exact ⟨fits, law.refl _⟩
  | inside _ ih =>
    have inner := ih (law.openFits _ _ fits)
    exact ⟨inner.1, law.trans (law.openGrows _ _ fits) inner.2⟩
  | @later names step rest scope stage _ _ ih =>
    have first := law.step step scope stage fits
    have behind := ih first.1
    exact ⟨behind.1, law.trans first.2 behind.2⟩

theorem StageLaw.head (law : StageLaw Fits Grows) (step : Step) (rest : List Step)
    (fits : Fits scope stage) :
    Grows (playStep step scope stage).stage (playSteps (step :: rest) scope stage).stage := by
  cases ended : (playStep step scope stage).halt with
  | some halt =>
    rw [playSteps_halted ended]
    exact law.refl _
  | none =>
    rw [playSteps_stage ended]
    exact (law.steps rest _ _ (law.step step scope stage fits).1).2

/-- A play grows on from each of its turns to its end. -/
theorem StageLaw.endOf (law : StageLaw Fits Grows) (occurs : Occurs turn names steps scope stage)
    (fits : Fits scope stage) : Grows turn.played.stage (playSteps steps scope stage).stage := by
  induction occurs with
  | here => exact law.head _ _ fits
  | @inside names on sub body rest scope stage _ ih =>
    have opened := law.openFits on sub fits
    have behind := law.trans (law.openGrows on sub fits) (law.steps body _ _ opened).2
    have closed := law.closeGrows on sub scope stage _ (law.kept fits behind)
    have step := law.head (.run on sub body) rest fits
    rw [playStep_run] at step
    exact law.trans (ih opened) (law.trans closed step)
  | later ended _ ih =>
    rw [playSteps_stage ended]
    exact ih (law.step _ _ _ fits).1

theorem StageLaw.played (law : StageLaw Fits Grows) {turn : Turn}
    (fits : Fits turn.scope turn.stage) : Grows turn.stage turn.played.stage :=
  (law.step turn.step turn.scope turn.stage fits).2

def Turn.Earlier (Grows : Stage → Stage → Prop) (a b : Turn) : Prop := Grows a.stage b.stage

mutual

theorem StageLaw.orderedStep (law : StageLaw Fits Grows) : ∀ (step : Step) (names : Names)
    (scope : Scope) (stage : Stage), Fits scope stage →
      (NodeHarness.turnsOfStep names step scope stage).Pairwise (Turn.Earlier Grows)
  | .leaf on operation, names, scope, stage, fits => by
    rw [NodeHarness.turnsOfStep]
    exact List.pairwise_singleton _ _
  | .run on sub body, names, scope, stage, fits => by
    rw [NodeHarness.turnsOfStep]
    have opened := law.openFits on sub fits
    refine List.pairwise_cons.mpr ⟨?_, law.ordered body _ _ _ opened⟩
    intro turn member
    exact law.trans (law.openGrows on sub fits) (law.reached (.of_mem member) opened).2

/-- The turns of a play come in the order of time. -/
theorem StageLaw.ordered (law : StageLaw Fits Grows) : ∀ (steps : List Step) (names : Names)
    (scope : Scope) (stage : Stage), Fits scope stage →
      (NodeHarness.turnsOf names steps scope stage).Pairwise (Turn.Earlier Grows)
  | [], names, scope, stage, fits => by
    rw [NodeHarness.turnsOf]
    exact .nil
  | step :: rest, names, scope, stage, fits => by
    have here := law.orderedStep step names scope stage fits
    rw [NodeHarness.turnsOf]
    cases ended : (playStep step scope stage).halt with
    | some halt => simpa only [ended, List.append_nil] using here
    | none =>
      have first := law.step step scope stage fits
      refine List.pairwise_append.mpr ⟨here, law.ordered rest _ _ _ first.1, ?_⟩
      intro earlier found later member
      have alone : Occurs earlier names [step] scope stage :=
        occurs_step step [] names scope stage earlier found
      have fitted := (law.reached alone fits).1
      have behind := law.endOf alone fits
      rw [playSteps_singleton] at behind
      have played := law.trans (law.played fitted) behind
      exact law.trans played (law.reached (.of_mem member) first.1).2

end

end Law

theorem Handle.child_notes (h : Handle) (sub : String) (w : World) :
    (h.child sub w).2.notes = w.notes := by
  cases h <;> rfl

/-- Between the steps of a play no note waits to be taken. -/
theorem taken_law : StageLaw (fun _ _ => True) fun stage later =>
    stage.world.notes = [] → later.world.notes = [] where
  refl _ := id
  trans first later := later ∘ first
  kept _ _ := trivial
  leafFits _ _ _ := trivial
  leafGrows _ _ _ _ := rfl
  openFits _ _ _ := trivial
  openGrows {scope stage} on sub _ taken :=
    (Handle.child_notes (scope.context on).handle sub stage.world).trans taken
  closeGrows on sub scope stage body _ taken := by
    unfold closing closeRun
    split
    · split
      · rfl
      · exact taken
    · rfl

end NodeHarness
