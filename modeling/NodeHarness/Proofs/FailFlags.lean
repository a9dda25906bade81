import NodeHarness.Proofs.Reentrancy
import NodeHarness.Proofs.Points

/-! Failure flags over a play: what a flag shows at every turn, which names stand for one flag, and
when a test is ended by it. The past of signals, by which flags are told, is itself told turn by
turn: a dispatch leaves what it and its listeners did, and every other step leaves its own entry, or
none. -/
namespace NodeHarness

theorem Acts.course {h : Handle} {before after : World} (acts : Acts h before after) :
    before.signals.Course after.signals := by
  rcases acts with plain | ⟨middle, message, plain, rfl⟩
  · exact plain.course
  · cases h <;> exact plain.course

theorem openRun_signals (on sub : String) (scope : Scope) (stage : Stage) :
    (openRun on sub scope stage).stage.world.signals = stage.world.signals :=
  congrArg Prod.snd (openRun_core on sub scope stage)

theorem closeRun_signals (parent sub : Handle) (before : Nat) (scope : Scope) (body : Played) :
    (closeRun parent sub before scope body).stage.world.signals = body.stage.world.signals :=
  congrArg Prod.snd (closeRun_core parent sub before scope body)

theorem patience_law : StageLaw (fun _ _ => True) fun stage later =>
    later.world.patience = stage.world.patience where
  refl _ := rfl
  trans first second := second.trans first
  kept _ _ := trivial
  leafFits _ _ _ := trivial
  leafGrows {scope stage} on operation _ :=
    congrArg Prod.fst (operation.exec_core (scope.context on) scope stage)
  openFits _ _ _ := trivial
  openGrows {scope stage} on sub _ := congrArg Prod.fst (openRun_core on sub scope stage)
  closeGrows _ _ scope _ body _ := congrArg Prod.fst (closeRun_core _ _ _ scope body)

theorem signals_law : StageLaw (fun _ _ => True) fun stage later =>
    Signals.Leads stage.world.signals later.world.signals where
  refl _ := .refl _
  trans := .trans
  kept _ _ := trivial
  leafFits _ _ _ := trivial
  leafGrows {scope stage} on operation _ :=
    (operation.exec_acts (scope.context on) scope stage).course.leads
  openFits _ _ _ := trivial
  openGrows {scope stage} on sub _ := openRun_signals on sub scope stage ▸ .refl _
  closeGrows _ _ scope _ body _ := closeRun_signals _ _ _ scope body ▸ .refl _

def Step.binds : Step → Option String
  | .leaf _ (.install flag) => some flag
  | .leaf _ (.unwired flag) => some flag
  | .leaf _ (.clone _ copy) => some copy
  | _ => none

theorem Stage.lookup_bindFlag (stage : Stage) (name : String) (flag : Nat) (other : String) :
    (stage.bindFlag name flag).flagNames.lookup other =
      if other = name then some flag else stage.flagNames.lookup other := by
  by_cases same : other = name
  · simp [bindFlag, same]
  · rw [bindFlag, List.lookup_cons, beq_false_of_ne same, if_neg same]
    exact lookup_filter_ne same _

theorem Stage.lookup_cloneFlag (stage : Stage) {name : String} {place : Nat}
    (bound : stage.flagNames.lookup name = some place) (copy other : String) :
    (stage.cloneFlag name copy).flagNames.lookup other =
      if other = copy then some place else stage.flagNames.lookup other := by
  have same : stage.cloneFlag name copy = stage.bindFlag copy place := by
    simp only [cloneFlag, bindFlag, bound]
  rw [same, lookup_bindFlag]

theorem leaf_names (on : String) (operation : Operation) (scope : Scope) (stage : Stage)
    {name : String} (free : (Step.leaf on operation).binds ≠ some name) :
    (playLeaf on operation scope stage).stage.flagNames.lookup name =
      stage.flagNames.lookup name := by
  have other {given : String} (free : some given ≠ some name) : ¬ name = given :=
    fun same => free (congrArg some same.symm)
  cases operation with
  | install flag => exact (Stage.lookup_bindFlag _ _ _ _).trans (if_neg (other free))
  | unwired flag => exact (Stage.lookup_bindFlag _ _ _ _).trans (if_neg (other free))
  | clone flag copy =>
    change (stage.cloneFlag flag copy).flagNames.lookup name = _
    cases bound : stage.flagNames.lookup flag with
    | none => simp only [Stage.cloneFlag, bound]
    | some place => rw [Stage.lookup_cloneFlag stage bound, if_neg (other free)]
  | dispatch event =>
    simp only [playLeaf, Operation.exec]
    cases stage.world.dispatch event <;> rfl
  | _ => rfl

section Hands

variable {α : Type} {read : Stage → α}

/-- What the next turn finds; the body of a sub-test begins with what was there before it. -/
def Turn.leaves (read : Stage → α) (t : Turn) : α :=
  match t.step with
  | .leaf _ _ => read t.played.stage
  | .run _ _ _ => read t.stage

/-- Every turn finds what the turn before it leaves. -/
def Hands (read : Stage → α) : α → List Turn → α → Prop
  | first, [], last => last = first
  | first, t :: ts, last => read t.stage = first ∧ Hands read (t.leaves read) ts last

theorem Hands.append {first middle last : α} {ts us : List Turn}
    (before : Hands read first ts middle) (behind : Hands read middle us last) :
    Hands read first (ts ++ us) last := by
  induction ts generalizing first with
  | nil =>
    have same : middle = first := before
    exact same ▸ behind
  | cons t ts ih => exact ⟨before.1, ih before.2⟩

theorem Hands.drop {first last : α} {ts us : List Turn} {t : Turn}
    (hands : Hands read first (ts ++ t :: us) last) : Hands read (t.leaves read) us last := by
  induction ts generalizing first with
  | nil => exact hands.2
  | cons turn ts ih => exact ih hands.2

/-- What is left alone when sub-tests are opened and closed is handed from turn to turn. -/
theorem hands_law (read : Stage → α)
    (opens : ∀ on sub scope stage, read (openRun on sub scope stage).stage = read stage)
    (closes : ∀ parent sub before scope body,
      read (closeRun parent sub before scope body).stage = read body.stage) :
    PlayLaw (fun _ _ => True) fun first ts last => Hands read (read first) ts (read last) where
  nil _ := rfl
  append := .append
  leafScope _ _ _ _ := trivial
  openScope _ _ _ _ := trivial
  leaf {names scope} on operation stage _ := by
    refine ⟨rfl, ?_⟩
    rw [Hands, Turn.leaves, Turn.played_leaf rfl]
  run on sub body stage _ inner := by
    rw [playStep_run, closes]
    rw [opens] at inner
    exact ⟨rfl, inner⟩

end Hands

theorem closeRun_names (parent sub : Handle) (before : Nat) (scope : Scope) (body : Played) :
    (closeRun parent sub before scope body).stage.flagNames = body.stage.flagNames := by
  unfold closeRun
  split
  · split <;> rfl
  · rfl

/-- A name stands for the same flag until it is given to another. -/
theorem Hands.lookup {first last : List (String × Nat)} {ts us : List Turn} {t : Turn}
    (hands : Hands Stage.flagNames first (ts ++ t :: us) last) {name : String}
    (free : ∀ turn ∈ ts, turn.step.binds ≠ some name) :
    t.stage.flagNames.lookup name = first.lookup name := by
  induction ts generalizing first with
  | nil => rw [hands.1]
  | cons turn ts ih =>
    have later := ih hands.2 fun other member => free other (List.mem_cons_of_mem _ member)
    have here := free turn List.mem_cons_self
    rw [later, ← hands.1]
    obtain ⟨names, step, scope, stage⟩ := turn
    cases step with
    | run on sub body => rfl
    | leaf on operation =>
      rw [Turn.leaves, Turn.played_leaf rfl]
      exact leaf_names on operation scope stage here

theorem abortIfTripped_halt (flag : String) (c : Context) (scope : Scope) (stage : Stage) :
    ((Operation.abortIfTripped flag).exec c scope stage).halt.isSome =
      stage.world.signals.tripped (stage.flag flag) := by
  simp only [Operation.exec, Operation.checked, Done.halt, Context.abortIfTripped]
  cases stage.world.signals.tripped (stage.flag flag) <;> rfl

/-- What a turn does to signals by dispatching an event. The dispatch is put on the past that stood
before, and behind it all that listeners did in it, at any depth and in the order of time. -/
structure Turn.Dispatches (t : Turn) (event : String) : Prop where
  returned : t.played.halt ≠ some .endless → ∃ d : Deed, d.Lawful ∧ d.action = .dispatch event ∧
    d.before = t.stage.world.signals ∧ d.given.signals = t.played.stage.world.signals ∧
    t.played.stage.world.signals.past = ((Deed.unfoldedAll d.inner).map Deed.entry).reverse ++
      .dispatched event :: t.stage.world.signals.past
  -- it is lost only where listeners call each other deeper than the world has patience for
  lost : t.played.halt = some .endless → t.played.stage.world.signals = t.stage.world.signals ∧
    ∀ d : Deed, d.Lawful → d.action = .dispatch event → d.before = t.stage.world.signals →
      t.stage.world.patience < d.depth

theorem Turn.played_signals {t : Turn} {on : String} {operation : Operation}
    (step : t.step = .leaf on operation) :
    t.played.stage.world.signals = operation.signalsBehind t.stage := by
  have core := operation.exec_core (t.scope.context on) t.scope t.stage
  rw [played_leaf step]
  exact (Prod.ext_iff.mp core).2

theorem Turn.dispatches {t : Turn} {event : String}
    (signals : t.played.stage.world.signals =
      t.stage.world.signals.behind t.stage.world.patience event)
    (endless : t.played.halt = some .endless ↔
      t.stage.world.signals.dispatch t.stage.world.patience event = none) :
    t.Dispatches event := by
  cases ran : t.stage.world.signals.dispatch t.stage.world.patience event with
  | none =>
    rw [Signals.behind, ran] at signals
    have lost := endless.mpr ran
    refine ⟨fun returned => absurd lost returned, fun _ => ⟨signals, ?_⟩⟩
    rintro ⟨action, before, given, inner⟩ lawful rfl rfl
    refine Nat.lt_of_not_ge fun enough => ?_
    have called := dispatch_eq_some.mpr ⟨inner, lawful, enough⟩
    cases ran.symm.trans called
  | some d =>
    rw [Signals.behind, ran] at signals
    refine ⟨fun _ => ?_, fun lost => ?_⟩
    · obtain ⟨inner, lawful, _⟩ := dispatch_eq_some.mp ran
      have past := past_of_lawful lawful
      rw [Deed.unfolded, List.map_cons, List.reverse_cons, List.append_assoc] at past
      exact ⟨_, lawful, rfl, rfl, signals.symm, signals ▸ past⟩
    · cases ran.symm.trans (endless.mp lost)

theorem Turn.dispatches_called {t : Turn} {on event : String}
    (step : t.step = .leaf on (.dispatch event)) : t.Dispatches event := by
  refine dispatches (played_signals step) ?_
  rw [played_leaf step, playLeaf_halt]
  simp only [Operation.exec, World.dispatch]
  cases t.stage.world.signals.dispatch t.stage.world.patience event <;>
    simp [Done.halt, Operation.quiet]

theorem Turn.dispatches_violated {t : Turn} {on : String} {operation : Operation}
    (step : t.step = .leaf on operation) (violated : operation.violates = true) :
    t.Dispatches failEvent := by
  have signals := played_signals step
  rw [Operation.signalsBehind_violated violated] at signals
  refine dispatches signals ?_
  rw [played_leaf step, playLeaf_halt]
  obtain ⟨r, ⟨lost, rfl⟩ | ⟨back, ends⟩, halted, _⟩ := Operation.exec_refuses t.scope violated
  · exact iff_of_true halted lost
  · rw [halted]
    exact iff_of_false (fun endless => ends.returns (Option.some.inj endless)) back

/-- The flags before a turn and behind it, and what it does to them. -/
structure Turn.FlagsExact (t : Turn) : Prop where
  before : t.stage.world.signals.Exact
  behind : t.played.stage.world.signals.Exact
  grown : t.stage.world.signals.past <:+ t.played.stage.world.signals.past
  called : ∀ on event, t.step = .leaf on (.dispatch event) → t.Dispatches event
  violated : ∀ on operation, t.step = .leaf on operation → operation.violates = true →
    t.Dispatches failEvent
  registered : ∀ on event label actions, t.step = .leaf on (.register event label actions) →
    t.played.stage.world.signals.past = .registered event :: t.stage.world.signals.past ∧
      ∀ other, t.played.stage.world.signals.listener? other =
        if other = event then some (.reporter label actions)
        else t.stage.world.signals.listener? other
  installed : ∀ on flag, t.step = .leaf on (.install flag) →
    ∃ place, t.played.stage.flagNames.lookup flag = some place ∧
      t.played.stage.world.signals.past = .installed place :: t.stage.world.signals.past
  unwired : ∀ on flag, t.step = .leaf on (.unwired flag) →
    ∃ place, t.played.stage.flagNames.lookup flag = some place ∧
      t.played.stage.world.signals.past = .made place :: t.stage.world.signals.past
  cloned : ∀ on flag copy place, t.step = .leaf on (.clone flag copy) →
    t.stage.flagNames.lookup flag = some place →
      t.played.stage.flagNames.lookup copy = some place ∧
        t.played.stage.flagNames.lookup flag = some place ∧
        t.played.stage.world.signals = t.stage.world.signals
  reset : ∀ on flag, t.step = .leaf on (.reset flag) →
    t.played.stage.world.signals.past =
      .reset (t.stage.flag flag) :: t.stage.world.signals.past
  still : ∀ on operation, t.step = .leaf on operation → operation.violates = false →
    operation.onSignals = false → t.played.stage.world.signals = t.stage.world.signals
  shown : ∀ on flag, t.step = .leaf on (.tripped flag) →
    ∃ notes lines state, t.played.traces = [.leaf notes (.ok (.flag state)) lines] ∧
      (state = true ↔ Signals.Due (t.stage.flag flag) t.stage.world.signals.past)
  aborts : ∀ on flag, t.step = .leaf on (.abortIfTripped flag) →
    (t.played.halt.isSome = true ↔
      Signals.Due (t.stage.flag flag) t.stage.world.signals.past)

theorem Turn.flagsExact {t : Turn} (faithful : t.stage.world.signals.Faithful) :
    t.FlagsExact where
  before := faithful.exact
  behind := ((signals_law.played trivial).kept faithful).exact
  grown := (signals_law.played trivial).grown
  called _ _ step := dispatches_called step
  violated _ _ step violated := dispatches_violated step violated
  registered on event label actions step := by
    rw [played_signals step]
    exact ⟨rfl, Signals.listener?_put _ _ _⟩
  installed on flag step := by
    rw [played_leaf step]
    exact ⟨_, (Stage.lookup_bindFlag _ _ _ _).trans (if_pos rfl), rfl⟩
  unwired on flag step := by
    rw [played_leaf step]
    exact ⟨_, (Stage.lookup_bindFlag _ _ _ _).trans (if_pos rfl), rfl⟩
  cloned on flag copy place step bound := by
    rw [played_leaf step]
    have found (other : String) := Stage.lookup_cloneFlag t.stage bound copy other
    refine ⟨(found copy).trans (if_pos rfl), (found flag).trans ?_, rfl⟩
    rw [bound, ite_self]
  reset on flag step := by
    rw [played_leaf step]
    rfl
  still on operation step satisfied apart := by
    rw [played_signals step, Operation.signalsBehind_still satisfied apart]
  shown on flag step := by
    rw [played_leaf step]
    exact ⟨_, _, _, rfl, faithful.trips _⟩
  aborts on flag step := by
    have halted : t.played.halt.isSome = t.stage.world.signals.tripped (t.stage.flag flag) := by
      rw [played_leaf step, playLeaf_halt, abortIfTripped_halt]
    rw [halted, faithful.trips]

theorem Turn.step_of_binds {t : Turn} {name : String} (binds : t.step.binds = some name) :
    t.leaves Stage.flagNames = t.played.stage.flagNames := by
  obtain ⟨names, step, scope, stage⟩ := t
  cases step with
  | leaf on operation => rfl
  | run on sub body => cases binds

/-- A name that a turn gives to a flag stands for it until it is given to another. -/
theorem flag_stays {first last : List (String × Nat)} {front middle back : List Turn}
    {giver t : Turn}
    (hands : Hands Stage.flagNames first (front ++ giver :: (middle ++ t :: back)) last)
    {name : String} {place : Nat} (binds : giver.step.binds = some name)
    (bound : giver.played.stage.flagNames.lookup name = some place)
    (free : ∀ turn ∈ middle, turn.step.binds ≠ some name) : t.stage.flag name = place := by
  have found := hands.drop.lookup free
  rw [Turn.step_of_binds binds, bound] at found
  rw [Stage.flag, found, Option.getD_some]

/-- A clone and its flag are one flag for as long as neither name is given away. -/
theorem clone_place {first last : List (String × Nat)} {front middle back : List Turn}
    {clone t : Turn}
    (hands : Hands Stage.flagNames first (front ++ clone :: (middle ++ t :: back)) last)
    {on flag copy : String} {place : Nat} (step : clone.step = .leaf on (.clone flag copy))
    (bound : clone.stage.flagNames.lookup flag = some place)
    (free : ∀ turn ∈ middle, turn.step.binds ≠ some flag ∧ turn.step.binds ≠ some copy) :
    t.stage.flag flag = place ∧ t.stage.flag copy = place := by
  have names : clone.leaves Stage.flagNames = (clone.stage.cloneFlag flag copy).flagNames := by
    rw [Turn.leaves, Turn.played_leaf step, step]
    rfl
  have found (name : String) := Stage.lookup_cloneFlag clone.stage bound copy name
  have original := hands.drop.lookup fun turn member => (free turn member).1
  have cloned := hands.drop.lookup fun turn member => (free turn member).2
  rw [names, found, bound, ite_self] at original
  rw [names, found, if_pos rfl] at cloned
  exact ⟨by rw [Stage.flag, original, Option.getD_some],
    by rw [Stage.flag, cloned, Option.getD_some]⟩

/-- Failure flags over the turns of a play, which begins without listeners and flags and ends with
the signals `last`. -/
structure FlagsExact (patience : Nat) (turns : List Turn) (last : Signals) : Prop where
  each : ∀ turn ∈ turns, turn.FlagsExact
  patient : ∀ turn ∈ turns, turn.stage.world.patience = patience
  -- nothing is done to signals but by turns
  handed : Hands (fun stage => stage.world.signals) .empty turns last
  ordered : turns.Pairwise fun earlier later =>
    earlier.stage.world.signals.past <:+ later.stage.world.signals.past
  named : ∀ front giver middle turn back, turns = front ++ giver :: (middle ++ turn :: back) →
    ∀ name place, giver.step.binds = some name →
      giver.played.stage.flagNames.lookup name = some place →
      (∀ t ∈ middle, t.step.binds ≠ some name) → turn.stage.flag name = place
  alike : ∀ front clone middle turn back, turns = front ++ clone :: (middle ++ turn :: back) →
    ∀ on flag copy place, clone.step = .leaf on (.clone flag copy) →
      clone.stage.flagNames.lookup flag = some place →
      (∀ t ∈ middle, t.step.binds ≠ some flag ∧ t.step.binds ≠ some copy) →
        turn.stage.flag flag = place ∧ turn.stage.flag copy = place

/-- A failure flag is set exactly when the failure event was dispatched while the flag's own
install was the last to take the event, and the flag was not reset since. -/
theorem failFlags_exact (patience : Nat) (kind : HandleKind) (backend : Backend) (name : String)
    (steps : List Step) :
    FlagsExact patience (turnsFresh patience kind backend name steps)
      (playFresh patience kind backend name steps).stage.world.signals := by
  have empty : (freshRoot patience kind name).2.signals = .empty := by
    cases kind <;> rfl
  have hands : Hands Stage.flagNames [] (turnsFresh patience kind backend name steps) _ :=
    (hands_law _ (fun _ _ _ _ => rfl) closeRun_names).steps steps .ofRoot
      (Scope.ofRoot (.root backend (freshRoot patience kind name).1))
      ⟨(freshRoot patience kind name).2, []⟩ trivial
  constructor
  · intro turn member
    have led := (signals_law.reached (.of_mem member) trivial).2
    exact Turn.flagsExact (led.kept (empty ▸ Signals.empty_faithful))
  · intro turn member
    have first : (freshRoot patience kind name).2.patience = patience := by
      cases kind <;> rfl
    exact (patience_law.reached (.of_mem member) trivial).2.trans first
  · have hands := hands_law (fun stage => stage.world.signals) openRun_signals closeRun_signals
    have signals := hands.steps steps .ofRoot
      (Scope.ofRoot (.root backend (freshRoot patience kind name).1))
      ⟨(freshRoot patience kind name).2, []⟩ trivial
    rw [empty] at signals
    exact signals
  · exact (signals_law.ordered steps .ofRoot _ _ trivial).imp Signals.Leads.grown
  · intro front giver middle turn back split given place binds bound free
    exact flag_stays (split ▸ hands) binds bound free
  · intro front clone middle turn back split on flag copy place step bound free
    exact clone_place (split ▸ hands) step bound free

end NodeHarness
