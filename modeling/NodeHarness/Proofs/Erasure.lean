import NodeHarness.Proofs.Points

/-! Scripts without some of their steps. Steps that can be erased are dropped at any depth, and the
two scripts are played next to each other: where a step that is kept does the same from stages that
are alike, and an erased one leaves a stage that is like the one before it, the plays take the same
turns but for the erased ones, and end alike. -/
namespace NodeHarness

/-- The second script is the first one without some leaves that can be erased. -/
inductive Erases (erasable : Operation → Bool) : List Step → List Step → Prop
  | nil : Erases erasable [] []
  | leaf (on : String) (operation : Operation) {rest fewer : List Step} :
      Erases erasable rest fewer →
      Erases erasable (.leaf on operation :: rest) (.leaf on operation :: fewer)
  | run (on sub : String) {body thin rest fewer : List Step} :
      Erases erasable body thin → Erases erasable rest fewer →
      Erases erasable (.run on sub body :: rest) (.run on sub thin :: fewer)
  | erased (on : String) {operation : Operation} {rest fewer : List Step} :
      erasable operation = true → Erases erasable rest fewer →
      Erases erasable (.leaf on operation :: rest) fewer

/-- A step without the body of its sub-test. -/
def Step.shell : Step → Step
  | .leaf on operation => .leaf on operation
  | .run on sub _ => .run on sub []

/-- What was seen of a step but for the steps in the body of its sub-test. -/
def Trace.shell : Trace → Trace
  | .leaf notes answer lines => .leaf notes answer lines
  | .run entered _ notes verdict => .run entered [] notes verdict

section Alike

variable (Alike : Stage → Stage → Prop) (look : Trace → Trace)

/-- Two plays end alike. -/
structure Played.EndsLike (p q : Played) : Prop where
  scope : q.scope = p.scope
  halt : q.halt = p.halt
  stage : Alike p.stage q.stage

/-- Two steps end alike, and the same is seen of them. -/
structure Played.Like (p q : Played) : Prop extends Played.EndsLike Alike p q where
  seen : q.traces.map look = p.traces.map look

/-- The same step is taken on the same contexts, from stages that are alike and to the same
effect. -/
structure Turn.Like (t u : Turn) : Prop where
  names : u.names = t.names
  step : u.step.shell = t.step.shell
  scope : u.scope = t.scope
  stage : Alike t.stage u.stage
  played : t.played.Like Alike look u.played

/-- A step that lets nothing halt and changes nothing that can be told from the stage. -/
structure Turn.Silent (t : Turn) : Prop where
  halt : t.played.halt = none
  scope : t.played.scope = t.scope
  stage : Alike t.stage t.played.stage

/-- The turns of the second play are those of the first one but for erased ones, which are
silent. -/
inductive Aligned (erasable : Operation → Bool) : List Turn → List Turn → Prop
  | nil : Aligned erasable [] []
  | kept {t u : Turn} {ts us : List Turn} : t.Like Alike look u → Aligned erasable ts us →
      Aligned erasable (t :: ts) (u :: us)
  | erased {t : Turn} {on : String} {operation : Operation} {ts us : List Turn} :
      t.step = .leaf on operation → erasable operation = true → t.Silent Alike →
      Aligned erasable ts us → Aligned erasable (t :: ts) us

theorem Aligned.append {erasable : Operation → Bool} {ts us ts' us' : List Turn}
    (first : Aligned Alike look erasable ts us) (later : Aligned Alike look erasable ts' us') :
    Aligned Alike look erasable (ts ++ ts') (us ++ us') := by
  induction first with
  | nil => exact later
  | kept like _ ih => exact .kept like ih
  | erased step can silent _ ih => exact .erased step can silent ih

/-- What makes erasing lawful: being alike is kept by every step that stays, by opening a sub-test
and by closing it, and by what is erased. -/
structure ErasureLaw (erasable : Operation → Bool) (Fits : Scope → Prop) : Prop where
  scopes : ScopeLaw fun _ scope => Fits scope
  symm : ∀ {a b}, Alike a b → Alike b a
  trans : ∀ {a b c}, Alike a b → Alike b c → Alike a c
  leaf : ∀ {scope a b} on operation, Fits scope → Alike a b →
    (playLeaf on operation scope a).Like Alike look (playLeaf on operation scope b)
  erased : ∀ {scope stage} on operation, Fits scope → erasable operation = true →
    Alike stage stage → (playLeaf on operation scope stage).halt = none ∧
      (playLeaf on operation scope stage).scope = scope ∧
      Alike stage (playLeaf on operation scope stage).stage
  unnamed : ∀ (names : Names) on operation, erasable operation = true →
    names.after (.leaf on operation) = names
  opened : ∀ {scope a b} on sub, Fits scope → Alike a b →
    (openRun on sub scope b).handle = (openRun on sub scope a).handle ∧
      Alike (openRun on sub scope a).stage (openRun on sub scope b).stage
  closed : ∀ {p q a b} parent sub scope, Alike a b → p.EndsLike Alike q →
    (closeRun parent sub a.world.journal.fatals.length scope p).Like Alike look
      (closeRun parent sub b.world.journal.fatals.length scope q)

end Alike

section Law

variable {Alike : Stage → Stage → Prop} {look : Trace → Trace} {erasable : Operation → Bool}
  {Fits : Scope → Prop} {names : Names} {scope : Scope} {a b : Stage} {step other : Step}
  {rest fewer : List Step}

/-- The plays of two scripts are compared: how they end, and by which turns. -/
structure Compares (Alike : Stage → Stage → Prop) (look : Trace → Trace)
    (erasable : Operation → Bool) (names : Names) (scope : Scope) (steps fewer : List Step)
    (a b : Stage) : Prop where
  ends : (playSteps steps scope a).EndsLike Alike (playSteps fewer scope b)
  turns : Aligned Alike look erasable (turnsOf names steps scope a) (turnsOf names fewer scope b)

/-- Two first steps that end alike, with what is behind them. -/
theorem compares_cons (first : (playStep step scope a).EndsLike Alike (playStep other scope b))
    (turns : Aligned Alike look erasable (turnsOfStep names step scope a)
      (turnsOfStep names other scope b))
    (same : names.after other = names.after step)
    (later : Compares Alike look erasable (names.after step) (playStep step scope a).scope rest
      fewer (playStep step scope a).stage (playStep other scope b).stage) :
    Compares Alike look erasable names scope (step :: rest) (other :: fewer) a b := by
  constructor
  · rw [playSteps, playSteps]
    cases ended : (playStep step scope a).halt with
    | some halt =>
      simp only [first.halt, ended]
      exact ⟨first.scope, rfl, first.stage⟩
    | none =>
      simp only [first.halt, ended, first.scope]
      exact ⟨later.ends.scope, later.ends.halt, later.ends.stage⟩
  · rw [turnsOf, turnsOf]
    apply turns.append
    rw [first.halt, same, first.scope]
    cases (playStep step scope a).halt with
    | some halt => exact .nil
    | none => exact later.turns

theorem ErasureLaw.compares_leaf (law : ErasureLaw Alike look erasable Fits) (fits : Fits scope)
    (alike : Alike a b) (on : String) (operation : Operation)
    (later : Compares Alike look erasable (names.after (.leaf on operation))
      (playStep (.leaf on operation) scope a).scope rest fewer
      (playStep (.leaf on operation) scope a).stage (playStep (.leaf on operation) scope b).stage) :
    Compares Alike look erasable names scope (.leaf on operation :: rest)
      (.leaf on operation :: fewer) a b := by
  have here := law.leaf on operation fits alike
  rw [← playStep, ← playStep] at here
  refine compares_cons here.toEndsLike ?_ rfl later
  rw [turnsOfStep, turnsOfStep]
  exact .kept ⟨rfl, rfl, rfl, alike, here⟩ .nil

theorem ErasureLaw.opened_scope (law : ErasureLaw Alike look erasable Fits) (fits : Fits scope)
    (alike : Alike a b) (on sub : String) :
    (openRun on sub scope b).scope = (openRun on sub scope a).scope :=
  congrArg (fun handle => scope.bind Scope.self { scope.context on with handle })
    (law.opened on sub fits alike).1

/-- A sub-test is closed alike when its body ended alike. -/
theorem ErasureLaw.run_like (law : ErasureLaw Alike look erasable Fits) (fits : Fits scope)
    (alike : Alike a b) (on sub : String) {body thin : List Step}
    (inner : (playSteps body (openRun on sub scope a).scope (openRun on sub scope a).stage).EndsLike
      Alike (playSteps thin (openRun on sub scope a).scope (openRun on sub scope b).stage)) :
    (playStep (.run on sub body) scope a).Like Alike look
      (playStep (.run on sub thin) scope b) := by
  obtain ⟨handle, opened⟩ := law.opened on sub fits alike
  rw [playStep_run, playStep_run, handle, law.opened_scope fits alike]
  exact law.closed _ _ scope opened inner

theorem ErasureLaw.compares_run (law : ErasureLaw Alike look erasable Fits) (fits : Fits scope)
    (alike : Alike a b) (on sub : String) {body thin : List Step}
    (inner : Compares Alike look erasable (names.inside on (openRun on sub scope a).handle.name)
      (openRun on sub scope a).scope body thin (openRun on sub scope a).stage
      (openRun on sub scope b).stage)
    (later : Compares Alike look erasable names scope rest fewer
      (playStep (.run on sub body) scope a).stage (playStep (.run on sub thin) scope b).stage) :
    Compares Alike look erasable names scope (.run on sub body :: rest) (.run on sub thin :: fewer)
      a b := by
  have here := law.run_like fits alike on sub inner.ends
  refine compares_cons here.toEndsLike ?_ rfl ?_
  · rw [turnsOfStep, turnsOfStep]
    refine .kept ⟨rfl, rfl, rfl, alike, here⟩ ?_
    simp only [(law.opened on sub fits alike).1, law.opened_scope fits alike]
    exact inner.turns
  · rw [playStep_run, closeRun_scope]
    exact later

theorem ErasureLaw.compares_erased (law : ErasureLaw Alike look erasable Fits) (fits : Fits scope)
    (alike : Alike a b) (on : String) {operation : Operation} (can : erasable operation = true)
    (later : ∀ {stage}, Alike stage b →
      Compares Alike look erasable names scope rest fewer stage b) :
    Compares Alike look erasable names scope (.leaf on operation :: rest) fewer a b := by
  have own := law.trans alike (law.symm alike)
  obtain ⟨goesOn, scopes, silent⟩ := law.erased on operation fits can own
  rw [← playStep] at goesOn scopes silent
  have behind := later (law.trans (law.symm silent) alike)
  constructor
  · rw [playSteps]
    simp only [goesOn, scopes]
    exact ⟨behind.ends.scope, behind.ends.halt, behind.ends.stage⟩
  · rw [turnsOf, turnsOfStep]
    simp only [goesOn, scopes, law.unnamed names on operation can]
    exact .erased rfl can ⟨goesOn, scopes, silent⟩ behind.turns

/-- Where erasing is lawful, a script is played like the script without what is erased. -/
theorem ErasureLaw.compares (law : ErasureLaw Alike look erasable Fits) {steps fewer : List Step}
    (erases : Erases erasable steps fewer) (names : Names) (scope : Scope) (a b : Stage)
    (fits : Fits scope) (alike : Alike a b) :
    Compares Alike look erasable names scope steps fewer a b := by
  induction erases generalizing names scope a b with
  | nil =>
    constructor
    · rw [playSteps, playSteps]
      exact ⟨rfl, rfl, alike⟩
    · rw [turnsOf, turnsOf]
      exact .nil
  | leaf on operation _ ih =>
    apply law.compares_leaf fits alike
    apply ih
    · exact @ScopeLaw.after _ law.scopes names scope fits (.leaf on operation) a
    · rw [playStep, playStep]
      exact (law.leaf on operation fits alike).stage
  | @run on sub body thin rest fewer _ _ inner later =>
    have within := @ScopeLaw.openScope _ law.scopes names scope on sub a fits
    have played := inner (names.inside on (openRun on sub scope a).handle.name)
      (openRun on sub scope a).scope _ _ within (law.opened on sub fits alike).2
    apply law.compares_run fits alike on sub played
    apply later names scope _ _ fits
    exact (law.run_like fits alike on sub played.ends).stage
  | erased on can _ ih =>
    apply law.compares_erased fits alike on can
    intro stage alike
    exact ih names scope stage b fits alike

end Law
end NodeHarness
