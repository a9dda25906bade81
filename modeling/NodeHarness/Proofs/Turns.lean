import NodeHarness.Script

/-! The turns of a play: every step that it comes to, at any depth and in order of time, with the
scope and the stage in which it is played. A law of single leaves, and of opening and closing a
sub-test, is a law of whole plays. -/
namespace NodeHarness

theorem lookup_filter_ne {α : Type} {name on : String} (other : on ≠ name)
    (entries : List (String × α)) :
    (entries.filter fun (entry, _) => entry != name).lookup on = entries.lookup on := by
  induction entries with
  | nil => rfl
  | cons entry rest ih =>
    obtain ⟨key, value⟩ := entry
    by_cases dropped : key = name
    · have skipped : (on == key) = false := by simpa [dropped] using other
      rw [List.filter_cons_of_neg (by simpa using dropped), ih, List.lookup_cons, skipped]
    · rw [List.filter_cons_of_pos (by simpa using dropped), List.lookup_cons, List.lookup_cons, ih]

theorem Scope.context_bind (scope : Scope) (name : String) (c : Context) (on : String) :
    (scope.bind name c).context on = if on = name then c else scope.context on := by
  by_cases same : on = name
  · simp [Scope.context, Scope.bind, same]
  · have differs : (on == name) = false := by simp [same]
    simp only [Scope.context, Scope.bind, List.lookup_cons, differs, if_neg same,
      lookup_filter_ne same]

theorem Scope.context_ofRoot (c : Context) (on : String) : (Scope.ofRoot c).context on = c := by
  simp only [Scope.context, Scope.ofRoot, List.lookup_cons, List.lookup_nil]
  split
  · rfl
  · split <;> rfl

/-- How a handle is related to the one that is looked at: it is that handle, it came about in a
sub-test `test` that was run from it, or neither. -/
inductive Kin
  | self
  | below (test : String)
  | outside
  deriving DecidableEq

def Kin.child (test : String) : Kin → Kin
  | .self => .below test
  | .below other => .below other
  | .outside => .outside

abbrev Names := String → Kin

namespace Names

def put (names : Names) (name : String) (kin : Kin) : Names :=
  fun other => if other = name then kin else names other

/-- In the body of a sub-test one name is taken by the sub-test's context. -/
def inside (names : Names) (on test : String) : Names :=
  names.put Scope.self ((names on).child test)

/-- A derived context is on the handle of the context that it comes from. -/
def after (names : Names) : Step → Names
  | .leaf on (.withFields _ target) => names.put target (names on)
  | _ => names

def ofBody : Names := fun name => if name = Scope.self then .self else .outside

def ofRoot : Names := fun _ => .self

end Names

/-- Every context behind a leaf comes from one before it, with its handle and its backend. -/
theorem leaf_source (names : Names) (on : String) (operation : Operation) (scope : Scope)
    (stage : Stage) (name : String) :
    ∃ source, names.after (.leaf on operation) name = names source ∧
      ((playLeaf on operation scope stage).scope.context name).handle =
        (scope.context source).handle ∧
      ((playLeaf on operation scope stage).scope.context name).backend =
        (scope.context source).backend := by
  cases operation with
  | withFields fields target =>
    have bound : (playLeaf on (.withFields fields target) scope stage).scope.context name =
        if name = target then (scope.context on).withFields (Fields.ofPayloads fields)
        else scope.context name := Scope.context_bind _ _ _ _
    rw [bound]
    by_cases same : name = target
    · refine ⟨on, ?_⟩
      simp only [Names.after, Names.put, if_pos same]
      exact ⟨trivial, rfl, rfl⟩
    · refine ⟨name, ?_⟩
      simp only [Names.after, Names.put, if_neg same]
      exact ⟨trivial, trivial, trivial⟩
  | dispatch event =>
    refine ⟨name, rfl, ?_⟩
    simp only [playLeaf, Operation.exec]
    cases stage.world.dispatch event <;> exact ⟨rfl, rfl⟩
  | _ => exact ⟨name, rfl, rfl, rfl⟩

def Step.on : Step → String
  | .leaf on _ => on
  | .run on _ _ => on

structure Turn where
  names : Names
  step : Step
  scope : Scope
  stage : Stage

namespace Turn

def kin (t : Turn) : Kin := t.names t.step.on

def played (t : Turn) : Played := playStep t.step t.scope t.stage

end Turn

mutual

def turnsOfStep : Names → Step → Scope → Stage → List Turn
  | names, .leaf on operation, scope, stage => [⟨names, .leaf on operation, scope, stage⟩]
  | names, .run on sub body, scope, stage =>
    let opened := openRun on sub scope stage
    ⟨names, .run on sub body, scope, stage⟩ ::
      turnsOf (names.inside on opened.handle.name) body opened.scope opened.stage

/-- The turns of some steps; none comes after a halt. -/
def turnsOf : Names → List Step → Scope → Stage → List Turn
  | _, [], _, _ => []
  | names, step :: rest, scope, stage =>
    let first := playStep step scope stage
    turnsOfStep names step scope stage ++
      match first.halt with
      | some _ => []
      | none => turnsOf (names.after step) rest first.scope first.stage

end

def turnsFresh (patience : Nat) (kind : HandleKind) (backend : Backend) (name : String)
    (steps : List Step) : List Turn :=
  let (handle, world) := freshRoot patience kind name
  turnsOf .ofRoot steps (Scope.ofRoot (.root backend handle)) ⟨world, []⟩

theorem playStep_run (on sub : String) (body : List Step) (scope : Scope) (stage : Stage) :
    playStep (.run on sub body) scope stage =
      closeRun (scope.context on).handle (openRun on sub scope stage).handle
        (openRun on sub scope stage).stage.world.journal.fatals.length scope
        (playSteps body (openRun on sub scope stage).scope (openRun on sub scope stage).stage) := by
  rw [playStep]

/-- A sub-test hands on only a halt that it does not take up. -/
theorem closeRun_halt {parent sub : Handle} {before : Nat} {scope : Scope} {body : Played}
    {halt : Halt} (ended : (closeRun parent sub before scope body).halt = some halt) :
    halt.caught = false := by
  unfold closeRun at ended
  split at ended
  · split at ended
    · cases ended
    · rename_i free
      cases ended
      simpa using free
  · cases ended

theorem closeRun_scope (parent sub : Handle) (before : Nat) (scope : Scope) (body : Played) :
    (closeRun parent sub before scope body).scope = scope := by
  unfold closeRun
  split
  · split <;> rfl
  · rfl

/-- The turns in the body of a sub-test. -/
def Turn.inner (t : Turn) : List Turn :=
  match t.step with
  | .leaf _ _ => []
  | .run on sub body =>
    let opened := openRun on sub t.scope t.stage
    turnsOf (t.names.inside on opened.handle.name) body opened.scope opened.stage

theorem mem_turnsOf_cons {names : Names} {step : Step} {rest : List Step} {scope : Scope}
    {stage : Stage} {turn : Turn} :
    turn ∈ turnsOf names (step :: rest) scope stage ↔
      turn ∈ turnsOfStep names step scope stage ∨
        (playStep step scope stage).halt = none ∧
          turn ∈ turnsOf (names.after step) rest (playStep step scope stage).scope
            (playStep step scope stage).stage := by
  rw [turnsOf]
  cases (playStep step scope stage).halt with
  | none => simp
  | some halt => simp

mutual

theorem inner_mem_step : ∀ (step : Step) (names : Names) (scope : Scope) (stage : Stage)
    (turn : Turn), turn ∈ turnsOfStep names step scope stage →
      ∀ deep ∈ turn.inner, deep ∈ turnsOfStep names step scope stage
  | .leaf on operation, names, scope, stage, turn, member, deep, found => by
    rw [turnsOfStep] at member
    rw [List.mem_singleton.mp member] at found
    cases found
  | .run on sub body, names, scope, stage, turn, member, deep, found => by
    rw [turnsOfStep] at member ⊢
    rcases List.mem_cons.mp member with rfl | member
    · exact List.mem_cons_of_mem _ found
    · exact List.mem_cons_of_mem _ (inner_mem body _ _ _ turn member deep found)

theorem inner_mem : ∀ (steps : List Step) (names : Names) (scope : Scope) (stage : Stage)
    (turn : Turn), turn ∈ turnsOf names steps scope stage →
      ∀ deep ∈ turn.inner, deep ∈ turnsOf names steps scope stage
  | [], names, scope, stage, turn, member, deep, found => by
    rw [turnsOf] at member
    cases member
  | step :: rest, names, scope, stage, turn, member, deep, found => by
    rw [mem_turnsOf_cons] at member ⊢
    rcases member with member | ⟨ended, member⟩
    · exact .inl (inner_mem_step step names scope stage turn member deep found)
    · exact .inr ⟨ended, inner_mem rest _ _ _ turn member deep found⟩

end

/-- `Fits` is kept by the names and contexts of a play. -/
structure ScopeLaw (Fits : Names → Scope → Prop) : Prop where
  leafScope : ∀ {names scope} on operation stage, Fits names scope →
    Fits (names.after (.leaf on operation)) (playLeaf on operation scope stage).scope
  openScope : ∀ {names scope} on sub stage, Fits names scope →
    Fits (names.inside on (openRun on sub scope stage).handle.name)
      (openRun on sub scope stage).scope

/-- A kind of context is kept by a play when a context on the same handle, or on the handle of a
sub-test, is of that kind with it. -/
theorem ScopeLaw.ofKind {P : Context → Prop}
    (kin : ∀ {c d : Context}, P c → d.backend = c.backend →
      (d.handle = c.handle ∨ ∃ sub w, d.handle = (c.handle.child sub w).1) → P d) :
    ScopeLaw fun _ scope => ∀ on, P (scope.context on) where
  leafScope {names scope} on operation stage all name := by
    obtain ⟨source, _, handle, backend⟩ := leaf_source names on operation scope stage name
    exact kin (all source) backend (.inl handle)
  openScope {names scope} on sub stage all name := by
    simp only [openRun, Scope.context_bind]
    split
    · exact kin (all on) rfl (.inr ⟨sub, stage.world, rfl⟩)
    · exact all name

/-- Where `Fits` is kept, `R` relates the stage before some turns to the stage behind them. -/
structure PlayLaw (Fits : Names → Scope → Prop) (R : Stage → List Turn → Stage → Prop) : Prop
    extends ScopeLaw Fits where
  nil : ∀ stage, R stage [] stage
  append : ∀ {first middle last ts us}, R first ts middle → R middle us last →
    R first (ts ++ us) last
  leaf : ∀ {names scope} on operation stage, Fits names scope →
    R stage [⟨names, .leaf on operation, scope, stage⟩] (playLeaf on operation scope stage).stage
  run : ∀ {names scope ts} on sub body stage, Fits names scope →
    R (openRun on sub scope stage).stage ts
      (playSteps body (openRun on sub scope stage).scope (openRun on sub scope stage).stage).stage →
    R stage (⟨names, .run on sub body, scope, stage⟩ :: ts)
      (playStep (.run on sub body) scope stage).stage

section Law

variable {Fits : Names → Scope → Prop} {R : Stage → List Turn → Stage → Prop}

theorem ScopeLaw.after (law : ScopeLaw Fits) {names : Names} {scope : Scope}
    (fits : Fits names scope) (step : Step) (stage : Stage) :
    Fits (names.after step) (playStep step scope stage).scope := by
  cases step with
  | leaf on operation =>
    rw [playStep]
    exact law.leafScope on operation stage fits
  | run on sub body =>
    rw [playStep_run, closeRun_scope]
    exact fits

mutual

theorem ScopeLaw.turnsOfStep (law : ScopeLaw Fits) : ∀ (step : Step) (names : Names)
    (scope : Scope) (stage : Stage), Fits names scope →
      ∀ turn ∈ turnsOfStep names step scope stage, Fits turn.names turn.scope
  | .leaf on operation, names, scope, stage, fits, turn, member => by
    rw [NodeHarness.turnsOfStep] at member
    rw [List.mem_singleton.mp member]
    exact fits
  | .run on sub body, names, scope, stage, fits, turn, member => by
    rw [NodeHarness.turnsOfStep] at member
    rcases List.mem_cons.mp member with rfl | member
    · exact fits
    · exact law.turnsOf body _ _ _ (law.openScope on sub stage fits) turn member

/-- What is kept from step to step holds in every turn of a play. -/
theorem ScopeLaw.turnsOf (law : ScopeLaw Fits) : ∀ (steps : List Step) (names : Names)
    (scope : Scope) (stage : Stage), Fits names scope →
      ∀ turn ∈ turnsOf names steps scope stage, Fits turn.names turn.scope
  | [], names, scope, stage, fits, turn, member => by
    rw [NodeHarness.turnsOf] at member
    cases member
  | step :: rest, names, scope, stage, fits, turn, member => by
    rcases mem_turnsOf_cons.mp member with member | ⟨_, member⟩
    · exact law.turnsOfStep step names scope stage fits turn member
    · exact law.turnsOf rest _ _ _ (law.after fits step stage) turn member

end

mutual

theorem PlayLaw.step (law : PlayLaw Fits R) : ∀ (step : Step) (names : Names) (scope : Scope)
    (stage : Stage), Fits names scope →
      R stage (turnsOfStep names step scope stage) (playStep step scope stage).stage
  | .leaf on operation, names, scope, stage, fits => by
    rw [turnsOfStep, playStep]
    exact law.leaf on operation stage fits
  | .run on sub body, names, scope, stage, fits => by
    rw [turnsOfStep]
    exact law.run on sub body stage fits
      (law.steps body _ _ _ (law.openScope on sub stage fits))

/-- What is lawful for every step is lawful for a play. -/
theorem PlayLaw.steps (law : PlayLaw Fits R) : ∀ (steps : List Step) (names : Names)
    (scope : Scope) (stage : Stage), Fits names scope →
      R stage (turnsOf names steps scope stage) (playSteps steps scope stage).stage
  | [], names, scope, stage, fits => by
    rw [turnsOf, playSteps]
    exact law.nil stage
  | step :: rest, names, scope, stage, fits => by
    have here := law.step step names scope stage fits
    rw [turnsOf, playSteps]
    cases ended : (playStep step scope stage).halt with
    | some halt => simpa only [ended, List.append_nil] using here
    | none => exact law.append here (law.steps rest _ _ _ (law.after fits step stage))

end

end Law
end NodeHarness
