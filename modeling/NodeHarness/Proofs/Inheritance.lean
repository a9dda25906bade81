import NodeHarness.Proofs.Acts
import NodeHarness.Proofs.Points

/-! Where a context comes from. A context is derived from a root by adding fields, by copying it and
by running sub-tests, and everything about it is told by that chain. The chains of the named
contexts can be read off a script; no step changes a context that it does not derive, and behind a
sub-test every name stands for what it stood for before, however the body ended. -/
namespace NodeHarness

/-- How a context is made from another one. -/
inductive Derivation
  | withFields (fields : Fields)
  | clone
  | run (sub : String)

namespace Derivation

/-- Contexts are values: a copy of one is that context. -/
def make (d : Derivation) (c : Context) (w : World) : Context :=
  match d with
  | .withFields fields => c.withFields fields
  | .clone => c
  | .run sub => { c with handle := (c.handle.child sub w).1 }

def fields? : Derivation → Option Fields
  | .withFields fields => some fields
  | _ => none

def sub? : Derivation → Option String
  | .run sub => some sub
  | _ => none

end Derivation

def Handle.isRecorder : Handle → Bool
  | .recorder _ => true
  | .printer _ _ => false

/-- The name of a sub-test as a handle spells it. -/
def Handle.spelled (h : Handle) (sub : String) : String :=
  if h.isRecorder then sub
  else String.ofList (sub.toList.map fun c => if c = ' ' then '_' else c)

namespace Context

/-- A context is derived from a root by a chain; in between, anything may become of the world. -/
inductive Derives (root : Context) : List Derivation → Context → Prop
  | root : Derives root [] root
  | next {chain : List Derivation} {c : Context} (d : Derivation) (w : World) :
      Derives root chain c → Derives root (chain ++ [d]) (d.make c w)

/-- What a context has from its root, by the chain that leads to it. -/
structure Inherited (root : Context) (chain : List Derivation) (c : Context) : Prop where
  backend : c.backend = root.backend
  level : c.level = root.level
  fields : c.fields = (chain.filterMap Derivation.fields?).foldl Fields.merge root.fields
  name : c.handle.name = (chain.filterMap Derivation.sub?).foldl
    (fun name sub => name ++ "/" ++ root.handle.spelled sub) root.handle.name
  kind : c.handle.isRecorder = root.handle.isRecorder

end Context

theorem Handle.child_name (h : Handle) (sub : String) (w : World) :
    (h.child sub w).1.name = h.name ++ "/" ++ h.spelled sub := by
  cases h <;> rfl

theorem Handle.child_kind (h : Handle) (sub : String) (w : World) :
    (h.child sub w).1.isRecorder = h.isRecorder := by
  cases h <;> rfl

namespace Context

variable {root c : Context} {chain : List Derivation}

theorem Inherited.next (inherited : root.Inherited chain c) (d : Derivation) (w : World) :
    root.Inherited (chain ++ [d]) (d.make c w) := by
  obtain ⟨backend, level, fields, name, kind⟩ := inherited
  cases d with
  | withFields added =>
    refine ⟨backend, level, ?_, ?_, kind⟩
    · rw [List.filterMap_append, List.foldl_append, ← fields]
      rfl
    · rw [List.filterMap_append, List.foldl_append, ← name]
      rfl
  | clone =>
    refine ⟨backend, level, ?_, ?_, kind⟩
    · rw [List.filterMap_append, List.foldl_append, ← fields]
      rfl
    · rw [List.filterMap_append, List.foldl_append, ← name]
      rfl
  | run sub =>
    refine ⟨backend, level, ?_, ?_, (Handle.child_kind c.handle sub w).trans kind⟩
    · rw [List.filterMap_append, List.foldl_append, ← fields]
      rfl
    · have spelled : c.handle.spelled sub = root.handle.spelled sub := by
        rw [Handle.spelled, Handle.spelled, kind]
      rw [List.filterMap_append, List.foldl_append, ← name]
      exact (Handle.child_name c.handle sub w).trans (congrArg _ spelled)

theorem Derives.inherited (derives : root.Derives chain c) : root.Inherited chain c := by
  induction derives with
  | root => exact ⟨rfl, rfl, rfl, rfl, rfl⟩
  | next d w _ ih => exact ih.next d w

end Context

/-- The chains from the root to the named contexts. -/
abbrev Chains := String → List Derivation

namespace Chains

def put (chains : Chains) (name : String) (chain : List Derivation) : Chains :=
  fun other => if other = name then chain else chains other

/-- In the body of a sub-test one name stands for the sub-test's own context. -/
def inside (chains : Chains) (on sub : String) : Chains :=
  chains.put Scope.self (chains on ++ [.run sub])

def after (chains : Chains) : Step → Chains
  | .leaf on (.withFields fields target) =>
    chains.put target (chains on ++ [.withFields (Fields.ofPayloads fields)])
  | _ => chains

def ofRoot : Chains := fun _ => []

/-- Every name stands for a context that its chain leads to. -/
def Fit (root : Context) (chains : Chains) (scope : Scope) : Prop :=
  ∀ on, root.Derives (chains on) (scope.context on)

end Chains

/-- The name under which a step puts a new context. -/
def Step.target : Step → Option String
  | .leaf _ (.withFields _ target) => some target
  | _ => none

theorem playLeaf_scope (on : String) (operation : Operation) (scope : Scope) (stage : Stage) :
    (playLeaf on operation scope stage).scope =
      match operation with
      | .withFields fields target =>
        scope.bind target ((scope.context on).withFields (Fields.ofPayloads fields))
      | _ => scope := by
  cases operation with
  | dispatch event =>
    simp only [playLeaf, Operation.exec]
    cases stage.world.dispatch event <;> rfl
  | _ => rfl

theorem playStep_scope_run (on sub : String) (body : List Step) (scope : Scope) (stage : Stage) :
    (playStep (.run on sub body) scope stage).scope = scope := by
  rw [playStep_run, closeRun_scope]

/-- Only the name that a step gives to a new context stands for another one behind it. -/
theorem playStep_context (step : Step) (scope : Scope) (stage : Stage) {name : String}
    (free : step.target ≠ some name) :
    (playStep step scope stage).scope.context name = scope.context name := by
  cases step with
  | run on sub body => rw [playStep_scope_run]
  | leaf on operation =>
    rw [playStep, playLeaf_scope]
    split
    · rename_i target
      refine (Scope.context_bind _ _ _ _).trans (if_neg fun same => free ?_)
      exact congrArg some same.symm
    · rfl

section Fit

variable {root : Context} {chains : Chains} {scope : Scope}

theorem Chains.Fit.ofRoot (root : Context) : Chains.ofRoot.Fit root (Scope.ofRoot root) := by
  intro on
  rw [Scope.context_ofRoot]
  exact .root

theorem Chains.Fit.after (fit : chains.Fit root scope) (step : Step) (stage : Stage) :
    (chains.after step).Fit root (playStep step scope stage).scope := by
  intro name
  cases step with
  | run on sub body =>
    rw [playStep_scope_run]
    exact fit name
  | leaf on operation =>
    rw [playStep, playLeaf_scope]
    cases operation with
    | withFields fields target =>
      simp only [Chains.after, Chains.put, Scope.context_bind]
      split
      · exact .next (.withFields (Fields.ofPayloads fields)) stage.world (fit on)
      · exact fit name
    | _ => exact fit name

theorem Chains.Fit.inside (fit : chains.Fit root scope) (on sub : String) (stage : Stage) :
    (chains.inside on sub).Fit root (openRun on sub scope stage).scope := by
  intro name
  simp only [openRun, Scope.context_bind, Chains.inside, Chains.put]
  split
  · exact .next (.run sub) stage.world (fit on)
  · exact fit name

end Fit

/-- A play comes to a turn, with the chains of the contexts that can be named there. -/
inductive Arrives (turn : Turn) (own : Chains) : Chains → List Step → Scope → Stage → Prop
  | here {rest : List Step} : Arrives turn own own (turn.step :: rest) turn.scope turn.stage
  | inside {chains : Chains} {on sub : String} {body rest : List Step} {scope : Scope}
      {stage : Stage} :
      Arrives turn own (chains.inside on sub) body (openRun on sub scope stage).scope
        (openRun on sub scope stage).stage →
      Arrives turn own chains (.run on sub body :: rest) scope stage
  | later {chains : Chains} {step : Step} {rest : List Step} {scope : Scope} {stage : Stage} :
      (playStep step scope stage).halt = none →
      Arrives turn own (chains.after step) rest (playStep step scope stage).scope
        (playStep step scope stage).stage →
      Arrives turn own chains (step :: rest) scope stage

section Arrivals

variable {turn : Turn} {own chains : Chains} {steps : List Step} {scope : Scope} {stage : Stage}

theorem arrives_of_occurs {names : Names} (occurs : Occurs turn names steps scope stage)
    (chains : Chains) : ∃ own, Arrives turn own chains steps scope stage := by
  induction occurs generalizing chains with
  | here => exact ⟨chains, .here⟩
  | inside _ ih =>
    obtain ⟨own, arrives⟩ := ih (chains.inside _ _)
    exact ⟨own, .inside arrives⟩
  | later returned _ ih =>
    obtain ⟨own, arrives⟩ := ih (chains.after _)
    exact ⟨own, .later returned arrives⟩

theorem Arrives.fit {root : Context} (arrives : Arrives turn own chains steps scope stage)
    (fit : chains.Fit root scope) : own.Fit root turn.scope := by
  induction arrives with
  | here => exact fit
  | inside _ ih => exact ih (fit.inside _ _ _)
  | later _ _ ih => exact ih (fit.after _ _)

end Arrivals

/-- Where the contexts of a play come from, and what leaves them alone. -/
structure Inheritance (root : Context) (steps : List Step) (scope : Scope) (stage : Stage) :
    Prop where
  chained : ∀ chain c, root.Derives chain c → root.Inherited chain c
  paired : ∀ chain c, root.Derives chain c →
    (c.backend = .native ∧ c.level = .debug) ∨ (c.backend = .standalone ∧ c.level = .trace)
  /-- On any two contexts an operation does the same to what is registered and to the flags: they
  have one dispatcher. -/
  dispatcher : ∀ (operation : Operation) (c other : Context) (scope : Scope) (stage : Stage),
    (operation.exec c scope stage).stage.world.signals =
      (operation.exec other scope stage).stage.world.signals
  arrives : ∀ turn ∈ turnsOf .ofRoot steps scope stage,
    ∃ own, Arrives turn own .ofRoot steps scope stage
  /-- The chains that are read off the script lead to the contexts of each turn, to those behind it,
  and to those in the body of a sub-test that it runs. -/
  named : ∀ turn own, Arrives turn own .ofRoot steps scope stage →
    own.Fit root turn.scope ∧ (own.after turn.step).Fit root turn.played.scope ∧
      ∀ on sub body, turn.step = .run on sub body →
        (own.inside on sub).Fit root (openRun on sub turn.scope turn.stage).scope
  kept : ∀ turn ∈ turnsOf .ofRoot steps scope stage, ∀ name, turn.step.target ≠ some name →
    turn.played.scope.context name = turn.scope.context name
  /-- A sub-test has the contexts around it, and leaves every name as it was, however it ends. -/
  around : ∀ turn ∈ turnsOf .ofRoot steps scope stage, ∀ on sub body,
    turn.step = .run on sub body → turn.played.scope = turn.scope ∧
      ∀ name, name ≠ Scope.self →
        (openRun on sub turn.scope turn.stage).scope.context name = turn.scope.context name

/-- Every context that a script comes to has all it has from the root, by the chain of fields and
sub-tests that leads to it, and nothing that is done elsewhere changes it. -/
theorem contexts_inherit (patience : Nat) (kind : HandleKind) (backend : Backend) (name : String)
    (steps : List Step) :
    Inheritance (.root backend (freshRoot patience kind name).1) steps
      (Scope.ofRoot (.root backend (freshRoot patience kind name).1))
      ⟨(freshRoot patience kind name).2, []⟩ where
  chained chain c derives := derives.inherited
  paired chain c derives := by
    obtain ⟨same, level, _⟩ := derives.inherited
    rw [same, level]
    cases backend with
    | native => exact .inl ⟨rfl, rfl⟩
    | standalone => exact .inr ⟨rfl, rfl⟩
  dispatcher operation c other scope stage := by
    have here := operation.exec_core c scope stage
    have there := operation.exec_core other scope stage
    exact congrArg Prod.snd (here.trans there.symm)
  arrives turn member := arrives_of_occurs (.of_mem member) .ofRoot
  named turn own arrives := by
    have fit := arrives.fit (.ofRoot _)
    exact ⟨fit, fit.after turn.step turn.stage, fun on sub _ _ => fit.inside on sub turn.stage⟩
  kept turn _ name free := playStep_context turn.step turn.scope turn.stage free
  around turn _ on sub body step := by
    refine ⟨?_, fun name other => ?_⟩
    · rw [Turn.played, step, playStep_scope_run]
    · exact (Scope.context_bind _ _ _ _).trans (if_neg other)

end NodeHarness
