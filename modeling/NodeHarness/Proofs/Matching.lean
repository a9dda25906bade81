import NodeHarness.Proofs.Acts
import NodeHarness.Proofs.Effects

/-! Worlds in which the same was done, from journals that have nothing in common. On a recorder
every operation keeps them so: it reads nothing of the journal but what it tells of it. With nothing
registered, no listener called and no flag read, the flags need not be the same either. -/
namespace NodeHarness

namespace Journal

/-- A journal with what it gained. -/
def append (j gained : Journal) : Journal :=
  ⟨j.lines ++ gained.lines, j.fatals ++ gained.fatals, j.parallelCalls + gained.parallelCalls⟩

theorem append_empty (j : Journal) : j.append .empty = j := by simp [append, Journal.empty]

theorem append_assoc (j first later : Journal) :
    (j.append first).append later = j.append (first.append later) := by
  simp [append, Nat.add_assoc]

end Journal

namespace Signals

/-- The same is registered and the same flags are set; what was done before may differ. -/
structure Alike (s t : Signals) : Prop where
  table : t.table = s.table
  flags : t.flags = s.flags

theorem Alike.symm {s t : Signals} (alike : s.Alike t) : t.Alike s :=
  ⟨alike.table.symm, alike.flags.symm⟩

theorem Alike.listener? {s t : Signals} (alike : s.Alike t) (event : String) :
    t.listener? event = s.listener? event := congrArg (List.lookup event) alike.table

theorem Alike.record {s t : Signals} (alike : s.Alike t) (done other : Signal) :
    (s.record done).Alike (t.record other) := ⟨alike.table, alike.flags⟩

theorem Alike.put {s t : Signals} (alike : s.Alike t) (event : String) (listener : Listener) :
    (s.put event listener).Alike (t.put event listener) :=
  ⟨congrArg (putListener event listener) alike.table, alike.flags⟩

theorem Alike.setFlag {s t : Signals} (alike : s.Alike t) (flag : Nat) (state : Bool) :
    (s.setFlag flag state).Alike (t.setFlag flag state) :=
  ⟨alike.table, congrArg (List.set · flag state) alike.flags⟩

theorem Alike.pushFlag {s t : Signals} (alike : s.Alike t) : s.pushFlag.Alike t.pushFlag :=
  ⟨alike.table, congrArg (· ++ [false]) alike.flags⟩

theorem Alike.install {s t : Signals} (alike : s.Alike t) : s.install.1.Alike t.install.1 := by
  simp only [Signals.install, alike.flags]
  exact (alike.pushFlag.put _ _).record _ _

/-- What a dispatch gives from signals that are alike. -/
def AlikeGiven (d e : Dispatched) : Prop :=
  e.reports = d.reports ∧ e.ran = d.ran ∧ d.signals.Alike e.signals

theorem perform_alike {go : String → Signals → Option Dispatched}
    (same : ∀ event s t d, Alike s t → go event s = some d →
      ∃ e, go event t = some e ∧ AlikeGiven d e)
    (label : String) (actions : List Action) {s t : Signals} (alike : s.Alike t)
    {given : Signals × List Report} (ran : perform go label actions s = some given) :
    ∃ other, perform go label actions t = some (other, given.2) ∧ given.1.Alike other := by
  induction actions generalizing s t given with
  | nil =>
    cases ran
    exact ⟨t, rfl, alike⟩
  | cons action rest ih =>
    cases action with
    | register event other inner => exact ih ((alike.put _ _).record _ _) ran
    | install => exact ih alike.install ran
    | addFlag => exact ih (alike.pushFlag.record _ _) ran
    | reset flag => exact ih ((alike.setFlag _ _).record _ _) ran
    | look flag => exact ih (alike.record _ _) ran
    | dispatch event =>
      simp only [perform] at ran
      cases called : go event s with
      | none => simp [called] at ran
      | some d =>
        cases later : perform go label rest d.signals with
        | none => simp [called, later] at ran
        | some result =>
          simp only [called, later, Option.some.injEq] at ran
          subst ran
          obtain ⟨e, calledToo, reports, returned, signals⟩ := same event s t d alike called
          obtain ⟨other, behind, alikeBehind⟩ := ih signals later
          exact ⟨other, by simp only [perform, calledToo, behind, reports, returned], alikeBehind⟩

theorem dispatch_alike (fuel : Nat) (event : String) (s t : Signals) (d : Dispatched)
    (alike : s.Alike t) (ran : s.dispatch fuel event = some d) :
    ∃ e, t.dispatch fuel event = some e ∧ AlikeGiven d e := by
  induction fuel generalizing event s t d with
  | zero => cases ran
  | succ fuel ih =>
    simp only [dispatch, alike.listener?] at ran ⊢
    have called := alike.record (.dispatched event) (.dispatched event)
    cases found : s.listener? event with
    | none =>
      simp only [found, Option.some.injEq] at ran
      subst ran
      exact ⟨_, rfl, rfl, rfl, called⟩
    | some listener =>
      cases listener with
      | trip flag =>
        simp only [found, Option.some.injEq] at ran
        subst ran
        exact ⟨_, rfl, rfl, rfl, called.setFlag flag true⟩
      | reporter label actions =>
        cases performed : perform (dispatch fuel) label actions (s.record (.dispatched event)) with
        | none => simp [found, performed] at ran
        | some result =>
          simp only [found, performed, Option.some.injEq] at ran
          subst ran
          obtain ⟨other, performedToo, behind⟩ := perform_alike ih label actions called performed
          exact ⟨⟨other, .heard label :: result.2, true⟩, by simp only [performedToo], rfl, rfl,
            behind⟩

theorem dispatch_unregistered (s : Signals) (patience : Nat) {event : String}
    (free : s.isRegistered event = false) :
    s.dispatch patience event =
      if patience = 0 then none else some ⟨s.record (.dispatched event), [], false⟩ := by
  have found : s.listener? event = none := by simpa [isRegistered] using free
  cases patience with
  | zero => rfl
  | succ fuel => simp [dispatch, found]

theorem behind_unregistered (s : Signals) (patience : Nat) {event : String}
    (free : s.isRegistered event = false) : (s.behind patience event).table = s.table := by
  rw [behind, dispatch_unregistered s patience free]
  split
  · rfl
  · rename_i ran
    split at ran
    · cases ran
    · cases ran
      rfl

end Signals

namespace World

/-- The world behind a dispatch that came back. -/
def hearing (w : World) (event : String) (d : Dispatched) : World :=
  let heard := (d.reports.map .report).reverse
  { w with
    signals := d.signals
    notes := heard ++ w.notes
    history := heard.map .noted ++ .dispatched event :: w.history }

theorem dispatch_eq (w : World) (event : String) :
    w.dispatch event =
      match w.signals.dispatch w.patience event with
      | none => .error .endless
      | some d => .ok (w.hearing event d) := rfl

end World

/-- Two worlds in which the same was done since their journals were `j` and `k`. Their flags may
differ unless `flagged`. -/
structure Matches (flagged : Bool) (j k : Journal) (a b : World) : Prop where
  patience : b.patience = a.patience
  table : b.signals.table = a.signals.table
  flags : flagged = true → b.signals.flags = a.signals.flags
  notes : b.notes = a.notes
  grown : ∃ gained, a.journal = j.append gained ∧ b.journal = k.append gained

/-- The same halt, in worlds that match. -/
def MatchHalts (flagged : Bool) (j k : Journal) (r s : Halt × World) : Prop :=
  s.1 = r.1 ∧ Matches flagged j k r.2 s.2

section Worlds

variable {flagged : Bool} {j k : Journal} {a b : World}

namespace Matches

theorem isRegistered (same : Matches flagged j k a b) (event : String) :
    b.signals.isRegistered event = a.signals.isRegistered event :=
  congrArg (fun table => (table.lookup event).isSome) same.table

theorem note (same : Matches flagged j k a b) (n : Note) :
    Matches flagged j k (a.note n) (b.note n) :=
  ⟨same.patience, same.table, same.flags, congrArg (n :: ·) same.notes, same.grown⟩

theorem gains (same : Matches flagged j k a b) (more : Journal) {a' b' : World}
    (left : a' = { a with journal := a.journal.append more, history := a'.history })
    (right : b' = { b with journal := b.journal.append more, history := b'.history }) :
    Matches flagged j k a' b' := by
  obtain ⟨gained, here, there⟩ := same.grown
  rw [left, right]
  refine ⟨same.patience, same.table, same.flags, same.notes, gained.append more, ?_, ?_⟩
  · rw [here, Journal.append_assoc]
  · rw [there, Journal.append_assoc]

theorem log (same : Matches flagged j k a b) (name line : String) :
    Matches flagged j k ((Handle.recorder name).log line a) ((Handle.recorder name).log line b) :=
  same.gains ⟨[(name, line)], [], 0⟩ (by simp [Handle.log, Journal.append])
    (by simp [Handle.log, Journal.append])

theorem fatal (same : Matches flagged j k a b) (name message : String) :
    MatchHalts flagged j k ((Handle.recorder name).fatal message a)
      ((Handle.recorder name).fatal message b) :=
  ⟨rfl, same.gains ⟨[], [⟨name, message⟩], 0⟩ (by simp [Handle.fatal, Journal.append])
    (by simp [Handle.fatal, Journal.append])⟩

theorem parallel (same : Matches flagged j k a b) (name : String) :
    Matches flagged j k ((Handle.recorder name).parallel a) ((Handle.recorder name).parallel b) :=
  same.gains ⟨[], [], 1⟩ (by simp [Handle.parallel, Journal.append])
    (by simp [Handle.parallel, Journal.append])

theorem hearing (same : Matches flagged j k a b) (event : String) {d e : Dispatched}
    (reports : e.reports = d.reports) (table : e.signals.table = d.signals.table)
    (flags : flagged = true → e.signals.flags = d.signals.flags) :
    Matches flagged j k (a.hearing event d) (b.hearing event e) :=
  ⟨same.patience, table, flags, by simp only [World.hearing, reports, same.notes], same.grown⟩

theorem dispatch (same : Matches flagged j k a b) (event : String)
    (calm : flagged = true ∨ a.signals.isRegistered event = false) :
    (a.dispatch event = .error .endless ∧ b.dispatch event = .error .endless) ∨
      ∃ a' b', a.dispatch event = .ok a' ∧ b.dispatch event = .ok b' ∧
        Matches flagged j k a' b' := by
  rw [a.dispatch_eq, b.dispatch_eq, same.patience]
  rcases calm with rfl | free
  · have alike : a.signals.Alike b.signals := ⟨same.table, same.flags rfl⟩
    cases ran : a.signals.dispatch a.patience event with
    | some d =>
      obtain ⟨e, ranToo, reports, _, signals⟩ := Signals.dispatch_alike _ _ _ _ _ alike ran
      rw [ranToo]
      exact .inr ⟨_, _, rfl, rfl, same.hearing event reports signals.table fun _ => signals.flags⟩
    | none =>
      cases ranToo : b.signals.dispatch a.patience event with
      | none => exact .inl ⟨rfl, rfl⟩
      | some e =>
        obtain ⟨d, impossible, _⟩ := Signals.dispatch_alike _ _ _ _ _ alike.symm ranToo
        rw [ran] at impossible
        cases impossible
  · have freeToo : b.signals.isRegistered event = false := (same.isRegistered event).trans free
    rw [Signals.dispatch_unregistered _ _ free, Signals.dispatch_unregistered _ _ freeToo]
    by_cases out : a.patience = 0
    · rw [if_pos out, if_pos out]
      exact .inl ⟨rfl, rfl⟩
    · rw [if_neg out, if_neg out]
      exact .inr ⟨_, _, rfl, rfl, same.hearing event rfl same.table same.flags⟩

end Matches

section Contexts

variable (c : Context) (message : String) (recorder : ∃ name, c.handle = .recorder name)

include recorder

theorem Context.logCallSite_matches (same : Matches flagged j k a b) :
    Matches flagged j k (c.logCallSite a) (c.logCallSite b) := by
  obtain ⟨name, handle⟩ := recorder
  simp only [logCallSite, handle]
  split
  · exact same.log name _
  · exact same.note _

theorem Context.emit_matches (same : Matches flagged j k a b) (level : Level) :
    Matches flagged j k (c.emit level message a) (c.emit level message b) := by
  obtain ⟨name, handle⟩ := recorder
  simp only [emit, handle]
  split
  · exact (same.log name _).log name _
  · exact same.note _

theorem Context.raise_matches (same : Matches flagged j k a b) :
    MatchHalts flagged j k (c.raise message a) (c.raise message b) := by
  obtain ⟨name, handle⟩ := recorder
  simp only [raise, handle]
  split
  · exact (same.log name _).fatal name _
  · exact ⟨rfl, same.note _⟩

theorem Context.raiseAtCallSite_matches (same : Matches flagged j k a b) :
    MatchHalts flagged j k (c.raise message (c.logCallSite a))
      (c.raise message (c.logCallSite b)) :=
  raise_matches c message recorder (logCallSite_matches c recorder same)

theorem Context.failAssertion_matches (failure detail : String) (same : Matches flagged j k a b) :
    MatchHalts flagged j k (c.handle.failAssertion failure detail a)
      (c.handle.failAssertion failure detail b) := by
  obtain ⟨name, handle⟩ := recorder
  rw [handle]
  exact same.fatal name _

end Contexts

theorem Context.GivesUp.matches {c : Context} {go : World → Halt × World} (gives : c.GivesUp go)
    (recorder : ∃ name, c.handle = .recorder name) (same : Matches flagged j k a b) :
    MatchHalts flagged j k (go a) (go b) := by
  cases gives with
  | raises => exact raiseAtCallSite_matches c _ recorder same
  | raisesWith =>
    -- the fields of a context do not matter to its handle
    exact raise_matches (c.withFields _) _ recorder (logCallSite_matches c recorder same)
  | asserts => exact failAssertion_matches c recorder _ _ same

theorem Context.violate_matches {c : Context} {go : World → Halt × World} (gives : c.GivesUp go)
    (recorder : ∃ name, c.handle = .recorder name) (same : Matches flagged j k a b)
    (calm : flagged = true ∨ a.signals.isRegistered failEvent = false) :
    MatchHalts flagged j k (violate a go) (violate b go) := by
  unfold violate
  rcases same.dispatch failEvent calm with ⟨here, there⟩ | ⟨a', b', here, there, behind⟩
  · rw [here, there]
    exact ⟨rfl, same⟩
  · rw [here, there]
    exact gives.matches recorder behind

theorem Context.Speaks.matches {c : Context} {say : World → World} (speaks : c.Speaks say)
    (recorder : ∃ name, c.handle = .recorder name) (same : Matches flagged j k a b) :
    Matches flagged j k (say a) (say b) := by
  cases speaks with
  | silent => exact same
  | emits => exact emit_matches c _ recorder same _
  | emitsAtCallSite => exact emit_matches c _ recorder (logCallSite_matches c recorder same) _

end Worlds

/-- An answer without what it tells of the whole journal. -/
def Answer.apart : Answer → Answer
  | .inspection c _ => .inspection c (.recorded 0 [] 0)
  | .lines _ => .lines none
  | answer => answer

/-- Nothing is registered, no listener is called and no flag is read. -/
def Operation.independent (s : Signals) : Operation → Bool
  | .register _ _ _ => false
  | .install _ => false
  | .abortIfTripped _ => false
  | .tripped _ => false
  | .dispatch event => !s.isRegistered event
  | operation => !operation.violates || !s.isRegistered failEvent

/-- A violated check is independent where nobody listens for the failure event. -/
theorem Operation.unheard {operation : Operation} {s : Signals}
    (violated : operation.violates = true) (independent : operation.independent s = true) :
    s.isRegistered failEvent = false := by
  have checked : operation.independent s =
      (!operation.violates || !s.isRegistered failEvent) := by
    cases operation with
    | register event label actions => cases violated
    | install flag => cases violated
    | abortIfTripped flag => cases violated
    | tripped flag => cases violated
    | dispatch event => cases violated
    | _ => rfl
  simpa [checked, violated] using independent

theorem Operation.signalsBehind_table (operation : Operation) (stage : Stage)
    (independent : operation.independent stage.world.signals = true) :
    (operation.signalsBehind stage).table = stage.world.signals.table := by
  cases operation with
  | fatal message => exact Signals.behind_unregistered _ _ (unheard rfl independent)
  | mustBeTrue value =>
    cases value with
    | true => rfl
    | false => exact Signals.behind_unregistered _ _ (unheard rfl independent)
  | mustBeOk result =>
    cases result with
    | ok value => rfl
    | error error => exact Signals.behind_unregistered _ _ (unheard rfl independent)
  | mustBeNone error =>
    cases error with
    | none => rfl
    | some error => exact Signals.behind_unregistered _ _ (unheard rfl independent)
  | dispatch event =>
    have free : stage.world.signals.isRegistered event = false := by
      simpa [Operation.independent] using independent
    exact Signals.behind_unregistered _ _ free
  | register event label actions => cases independent
  | install flag => cases independent
  | _ => rfl

structure Stage.Matches (flagged : Bool) (j k : Journal) (a b : Stage) : Prop where
  world : NodeHarness.Matches flagged j k a.world b.world
  names : flagged = true → b.flagNames = a.flagNames

/-- What an operation does in stages that match. -/
structure Done.Matches (flagged : Bool) (j k : Journal) (p q : Done) : Prop where
  answer : q.answer.map Answer.apart = p.answer.map Answer.apart
  scope : q.scope = p.scope
  stage : p.stage.Matches flagged j k q.stage

section Operations

variable {flagged : Bool} {j k : Journal} {a b : Stage}

theorem Stage.Matches.flag (same : a.Matches flagged j k b) (known : flagged = true)
    (name : String) : b.flag name = a.flag name := by
  rw [Stage.flag, Stage.flag, same.names known, same.world.flags known]

theorem violated_matches {scope : Scope} {r s : Halt × World} (halts : MatchHalts flagged j k r s)
    (names : flagged = true → b.flagNames = a.flagNames) :
    (Operation.checked scope a (Context.violated r)).Matches flagged j k
      (Operation.checked scope b (Context.violated s)) :=
  ⟨congrArg (fun halt => Except.error halt) halts.1, rfl, halts.2, names⟩

theorem exec_matches (operation : Operation) (c : Context)
    (recorder : ∃ name, c.handle = .recorder name) (scope : Scope)
    (same : a.Matches flagged j k b)
    (calm : flagged = true ∨ operation.independent a.world.signals = true) :
    (operation.exec c scope a).Matches flagged j k (operation.exec c scope b) := by
  have refused (violated : operation.violates = true) :
      (operation.exec c scope a).Matches flagged j k (operation.exec c scope b) := by
    obtain ⟨go, gives, ran⟩ := operation.exec_violated c violated
    rw [ran, ran]
    exact violated_matches (Context.violate_matches gives recorder same.world
      (calm.imp_right (Operation.unheard violated))) same.names
  cases operation with
  | withFields fields target => exact ⟨rfl, rfl, same⟩
  | say voice message =>
    exact ⟨rfl, rfl, (Operation.sayAs_speaks c voice message).matches recorder same.world,
      same.names⟩
  | fatal message => exact refused rfl
  | mustBeTrue value =>
    cases value with
    | true => exact ⟨rfl, rfl, same⟩
    | false => exact refused rfl
  | mustBeOk result =>
    cases result with
    | ok value => exact ⟨rfl, rfl, same⟩
    | error error => exact refused rfl
  | mustBeNone error =>
    cases error with
    | none => exact ⟨rfl, rfl, same⟩
    | some error => exact refused rfl
  | parallel =>
    obtain ⟨name, handle⟩ := recorder
    refine ⟨rfl, rfl, ?_, same.names⟩
    simp only [Operation.exec, Operation.quiet, Stage.withWorld, handle]
    exact same.world.parallel name
  | dispatch event =>
    have free : flagged = true ∨ a.world.signals.isRegistered event = false :=
      calm.imp_right fun independent => by simpa [Operation.independent] using independent
    rcases same.world.dispatch event free with ⟨here, there⟩ | ⟨a', b', here, there, behind⟩
    · simp only [Operation.exec, here, there]
      exact ⟨rfl, rfl, same⟩
    · simp only [Operation.exec, here, there]
      exact ⟨rfl, rfl, behind, same.names⟩
  | register event label actions =>
    exact ⟨rfl, rfl, ⟨same.world.patience, congrArg (Signals.putListener event _) same.world.table,
      same.world.flags, same.world.notes, same.world.grown⟩, same.names⟩
  | install flag =>
    have known : flagged = true := calm.resolve_right (by simp [Operation.independent])
    have alike : a.world.signals.Alike b.world.signals := ⟨same.world.table, same.world.flags known⟩
    refine ⟨rfl, rfl, ⟨same.world.patience, alike.install.table, fun _ => alike.install.flags,
      same.world.notes, same.world.grown⟩, fun _ => ?_⟩
    simp only [Operation.exec, Operation.quiet, Stage.bindFlag, Stage.withSignals, Signals.install,
      same.names known, alike.flags]
  | unwired flag =>
    refine ⟨rfl, rfl, ⟨same.world.patience, same.world.table, fun known => ?_,
      same.world.notes, same.world.grown⟩, fun known => ?_⟩
    · exact congrArg (· ++ [false]) (same.world.flags known)
    · simp only [Operation.exec, Operation.quiet, Stage.bindFlag, Stage.withSignals,
        Signals.addFlag, same.names known, same.world.flags known]
  | clone flag copy =>
    refine ⟨rfl, rfl, same.world, fun known => ?_⟩
    simp only [Operation.exec, Operation.quiet, Stage.cloneFlag, same.names known]
  | abortIfTripped flag =>
    have known : flagged = true := calm.resolve_right (by simp [Operation.independent])
    have seen : b.world.signals.tripped (b.flag flag) = a.world.signals.tripped (a.flag flag) := by
      rw [Signals.tripped, Signals.tripped, same.flag known, same.world.flags known]
    simp only [Operation.exec, Context.abortIfTripped, seen]
    split
    · exact violated_matches (c.raiseAtCallSite_matches _ recorder same.world) same.names
    · exact ⟨rfl, rfl, same⟩
  | tripped flag =>
    have known : flagged = true := calm.resolve_right (by simp [Operation.independent])
    have seen : b.world.signals.tripped (b.flag flag) = a.world.signals.tripped (a.flag flag) := by
      rw [Signals.tripped, Signals.tripped, same.flag known, same.world.flags known]
    exact ⟨by simp only [Operation.exec, seen], rfl, same⟩
  | reset flag =>
    refine ⟨rfl, rfl, ⟨same.world.patience, same.world.table, fun known => ?_,
      same.world.notes, same.world.grown⟩, same.names⟩
    simp only [Operation.exec, Operation.quiet, Stage.withSignals, Signals.reset, Signals.record,
      Signals.setFlag, same.flag known, same.world.flags known]
  | inspect => exact ⟨rfl, rfl, same⟩
  | describe => exact ⟨rfl, rfl, same⟩
  | linesFor test => exact ⟨rfl, rfl, same⟩
  | requireTrue value message =>
    cases value with
    | true => exact ⟨rfl, rfl, same⟩
    | false => exact violated_matches (c.failAssertion_matches recorder _ _ same.world) same.names
  | failAssertion failure detail =>
    exact violated_matches (c.failAssertion_matches recorder _ _ same.world) same.names
  | panic text => exact ⟨rfl, rfl, same⟩

end Operations
end NodeHarness
