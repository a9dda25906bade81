import NodeHarness.Proofs.Wiring

/-! Dispatches inside dispatches. A listener may register and dispatch while it runs, so the table
changes in the middle of a dispatch. What a caller does is told by its deeds: each is an action,
with the signals before it and what it gave, and a dispatch that ran a listener holds what that
listener did, from its first action to its last. In the order of time, the listener that a dispatch
runs is the one that was registered last before the dispatch began. -/
namespace NodeHarness

open Signals

structure Deed where
  action : Action
  before : Signals
  given : Dispatched
  inner : List Deed

/-- What is registered by an action for which event. -/
def Action.registers (s : Signals) : Action → Option (String × Listener)
  | .register event label actions => some (event, .reporter label actions)
  | .install => some (failEvent, .trip s.flags.length)
  | _ => none

namespace Deed

def registers (d : Deed) : Option (String × Listener) := d.action.registers d.before

/-- What the deed leaves in the past of signals. -/
def entry (d : Deed) : Signal :=
  match d.action with
  | .register event _ _ => .registered event
  | .dispatch event => .dispatched event
  | .install => .installed d.before.flags.length
  | .addFlag => .made d.before.flags.length
  | .reset flag => .reset flag
  | .look flag => .seen flag (d.before.tripped flag)

/-- What is heard of the deed when `caller` does it. -/
def reports (caller : String) (d : Deed) : List Report :=
  match d.action with
  | .dispatch event => d.given.reports ++ [.relayed caller event d.given.ran]
  | _ => []

mutual

/-- The deed and all that it led to, in the order of time. -/
def unfolded : Deed → List Deed
  | ⟨action, before, given, inner⟩ => ⟨action, before, given, inner⟩ :: unfoldedAll inner

def unfoldedAll : List Deed → List Deed
  | [] => []
  | d :: rest => d.unfolded ++ unfoldedAll rest

end

mutual

/-- How deep dispatches lie in each other in the deed. -/
def depth : Deed → Nat
  | ⟨.dispatch _, _, _, inner⟩ => depthAll inner + 1
  | _ => 0

def depthAll : List Deed → Nat
  | [] => 0
  | d :: rest => max d.depth (depthAll rest)

end

end Deed

open Deed

/-- What an action makes of signals, if it is no dispatch. -/
def Signals.act (s : Signals) : Action → Option Signals
  | .register event label actions => some (s.register event (.reporter label actions))
  | .install => some s.install.1
  | .addFlag => some s.addFlag.1
  | .reset flag => some (s.reset flag)
  | .look flag => some (s.look flag)
  | .dispatch _ => none

mutual

/-- The deed is done as signals do it: a dispatch looks the listener up at its beginning. -/
inductive Deed.Lawful : Deed → Prop
  | acts {action : Action} {s t : Signals} :
      s.act action = some t → Deed.Lawful ⟨action, s, ⟨t, [], false⟩, []⟩
  | unheard {event : String} {s : Signals} : s.listener? event = none →
      Deed.Lawful ⟨.dispatch event, s, ⟨s.record (.dispatched event), [], false⟩, []⟩
  | trips {event : String} {s : Signals} {flag : Nat} : s.listener? event = some (.trip flag) →
      Deed.Lawful
        ⟨.dispatch event, s, ⟨(s.record (.dispatched event)).setFlag flag true, [], true⟩, []⟩
  | hears {event label : String} {s t : Signals} {actions : List Action} {inner : List Deed} :
      s.listener? event = some (.reporter label actions) →
      Row (s.record (.dispatched event)) actions inner t →
      Deed.Lawful
        ⟨.dispatch event, s, ⟨t, .heard label :: inner.flatMap (Deed.reports label), true⟩, inner⟩

/-- The deeds do the actions, each once and one after the other, from the first signals to the
last. -/
inductive Row : Signals → List Action → List Deed → Signals → Prop
  | nil {s : Signals} : Row s [] [] s
  | cons {d : Deed} {actions : List Action} {rest : List Deed} {t : Signals} :
      Deed.Lawful d → Row d.given.signals actions rest t →
      Row d.before (d.action :: actions) (d :: rest) t

end

section Runs

variable {caller : String} {s t : Signals} {actions : List Action} {reports : List Report}

theorem perform_act {go : String → Signals → Option Dispatched} {action : Action}
    {rest : List Action} (acts : s.act action = some t) :
    perform go caller (action :: rest) s = perform go caller rest t := by
  cases action <;> cases acts <;> rfl

theorem reports_act {action : Action} {given : Dispatched} {inner : List Deed}
    (acts : s.act action = some t) : Deed.reports caller ⟨action, s, given, inner⟩ = [] := by
  cases action <;> first | rfl | cases acts

theorem depth_act {action : Action} {given : Dispatched} {inner : List Deed}
    (acts : s.act action = some t) : Deed.depth ⟨action, s, given, inner⟩ = 0 := by
  cases action <;> first | rfl | cases acts

theorem row_of_perform {go : String → Signals → Option Dispatched} {bound : Nat}
    (lawful : ∀ event s d, go event s = some d →
      ∃ inner, Deed.Lawful ⟨.dispatch event, s, d, inner⟩ ∧ depthAll inner < bound)
    (ran : perform go caller actions s = some (t, reports)) :
    ∃ deeds, Row s actions deeds t ∧ reports = deeds.flatMap (Deed.reports caller) ∧
      depthAll deeds ≤ bound := by
  induction actions generalizing s reports with
  | nil =>
    cases ran
    exact ⟨[], .nil, rfl, Nat.zero_le bound⟩
  | cons action rest ih =>
    cases acts : s.act action with
    | some middle =>
      rw [perform_act acts] at ran
      obtain ⟨deeds, row, heard, deep⟩ := ih ran
      refine ⟨⟨action, s, ⟨middle, [], false⟩, []⟩ :: deeds, .cons (.acts acts) row, ?_, ?_⟩
      · rw [List.flatMap_cons, reports_act acts, heard, List.nil_append]
      · rw [depthAll, depth_act acts, Nat.zero_max]
        exact deep
    | none =>
      cases action with
      | dispatch event =>
        simp only [perform] at ran
        cases called : go event s with
        | none => simp [called] at ran
        | some d =>
          cases behind : perform go caller rest d.signals with
          | none => simp [called, behind] at ran
          | some result =>
            simp only [called, behind, Option.some.injEq, Prod.mk.injEq] at ran
            obtain ⟨rfl, rfl⟩ := ran
            obtain ⟨inner, here, below⟩ := lawful event s d called
            obtain ⟨deeds, row, heard, deep⟩ := ih behind
            refine ⟨⟨.dispatch event, s, d, inner⟩ :: deeds, .cons here row, ?_, ?_⟩
            · rw [List.flatMap_cons, ← heard, Deed.reports, List.append_assoc]
              rfl
            · exact Nat.max_le.mpr ⟨below, deep⟩
      | _ => cases acts

theorem lawful_of_dispatch (fuel : Nat) (event : String) (s : Signals) (d : Dispatched)
    (ran : s.dispatch fuel event = some d) :
    ∃ inner, Deed.Lawful ⟨.dispatch event, s, d, inner⟩ ∧ depthAll inner < fuel := by
  induction fuel generalizing event s d with
  | zero => cases ran
  | succ fuel ih =>
    simp only [dispatch] at ran
    cases found : s.listener? event with
    | none =>
      simp only [found, Option.some.injEq] at ran
      subst ran
      exact ⟨[], .unheard found, fuel.succ_pos⟩
    | some listener =>
      cases listener with
      | trip flag =>
        simp only [found, Option.some.injEq] at ran
        subst ran
        exact ⟨[], .trips found, fuel.succ_pos⟩
      | reporter label actions =>
        cases performed : perform (Signals.dispatch fuel) label actions
            (s.record (.dispatched event)) with
        | none => simp [found, performed] at ran
        | some result =>
          simp only [found, performed, Option.some.injEq] at ran
          subst ran
          obtain ⟨inner, row, heard, deep⟩ := row_of_perform ih performed
          exact ⟨inner, heard ▸ .hears found row, Nat.lt_succ_of_le deep⟩

theorem perform_mono {go further : String → Signals → Option Dispatched}
    (more : ∀ event s d, go event s = some d → further event s = some d)
    {r : Signals × List Report} (ran : perform go caller actions s = some r) :
    perform further caller actions s = some r := by
  induction actions generalizing s r with
  | nil => exact ran
  | cons action rest ih =>
    cases action with
    | dispatch event =>
      simp only [perform] at ran ⊢
      cases called : go event s with
      | none => simp [called] at ran
      | some d =>
        cases behind : perform go caller rest d.signals with
        | none => simp [called, behind] at ran
        | some result =>
          simp only [called, behind] at ran
          simp only [more event s d called, ih behind]
          exact ran
    | _ => exact ih ran

/-- A dispatch that comes back gives the same with more fuel. -/
theorem dispatch_mono {fuel more : Nat} (enough : fuel ≤ more) {event : String} {s : Signals}
    {d : Dispatched} (ran : s.dispatch fuel event = some d) : s.dispatch more event = some d := by
  induction fuel generalizing more event s d with
  | zero => cases ran
  | succ fuel ih =>
    obtain ⟨more, rfl⟩ := Nat.exists_eq_add_of_le' (Nat.lt_of_lt_of_le fuel.succ_pos enough)
    simp only [dispatch] at ran ⊢
    cases found : s.listener? event with
    | none => simpa only [found] using ran
    | some listener =>
      cases listener with
      | trip flag => simpa only [found] using ran
      | reporter label actions =>
        cases performed : perform (Signals.dispatch fuel) label actions
            (s.record (.dispatched event)) with
        | none => simp [found, performed] at ran
        | some result =>
          have further := perform_mono (fun _ _ _ => ih (Nat.le_of_succ_le_succ enough)) performed
          simp only [found, performed] at ran
          simp only [further]
          exact ran

mutual

theorem dispatch_of_lawful : ∀ {event : String} {s : Signals} {d : Dispatched} {inner : List Deed},
    Deed.Lawful ⟨.dispatch event, s, d, inner⟩ → s.dispatch (depthAll inner + 1) event = some d
  | _, _, _, _, .acts impossible => by cases impossible
  | _, _, _, _, .unheard found => by simp only [dispatch, found]
  | _, _, _, _, .trips found => by simp only [dispatch, found]
  | _, _, _, _, @Deed.Lawful.hears _ label _ _ _ _ found row => by
    simp only [dispatch, found, perform_of_row label row]

theorem perform_of_row (caller : String) : ∀ {s t : Signals} {actions : List Action}
    {deeds : List Deed}, Row s actions deeds t →
      perform (Signals.dispatch (depthAll deeds)) caller actions s =
        some (t, deeds.flatMap (Deed.reports caller))
  | _, _, _, _, .nil => rfl
  | _, _, _, _, @Row.cons ⟨action, before, given, nested⟩ _ rest _ lawful row => by
    have behind := perform_mono (fun _ _ _ => dispatch_mono (Nat.le_max_right
      (Deed.depth ⟨action, before, given, nested⟩) (depthAll rest))) (perform_of_row caller row)
    cases action with
    | dispatch event =>
      have called := dispatch_mono (Nat.le_max_left (depthAll nested + 1) (depthAll rest))
        (dispatch_of_lawful lawful)
      rw [depth] at behind
      simp only [depthAll, depth, perform, called, behind, List.flatMap_cons, Deed.reports,
        List.append_assoc, List.singleton_append]
    | _ =>
      cases lawful with
      | acts acts =>
        rw [depthAll, perform_act acts, behind, List.flatMap_cons, reports_act acts,
          List.nil_append]

end

/-- A dispatch comes back exactly when dispatches lie in it no deeper than it has fuel. -/
theorem dispatch_eq_some {fuel : Nat} {event : String} {d : Dispatched} :
    s.dispatch fuel event = some d ↔
      ∃ inner, Deed.Lawful ⟨.dispatch event, s, d, inner⟩ ∧ depthAll inner < fuel :=
  ⟨lawful_of_dispatch fuel event s d,
    fun ⟨_, lawful, deep⟩ => dispatch_mono deep (dispatch_of_lawful lawful)⟩

end Runs

/-- Listeners by event. -/
abbrev Known := String → Option Listener

/-- What a deed registers takes its event over. -/
def Deed.taking (d : Deed) (known : Known) : Known := fun other =>
  match d.registers with
  | some (event, listener) => if other = event then some listener else known other
  | none => known other

/-- The listeners behind some deeds, by what these registered. -/
def latest (known : Known) (deeds : List Deed) : Known :=
  deeds.foldl (fun known d => d.taking known) known

/-- Each deed finds the listeners that the deeds before it left. -/
def Told (known : Known) : List Deed → Prop
  | [] => True
  | d :: rest => d.before.listener? = known ∧ Told (d.taking known) rest

section Latest

variable {known : Known} {d : Deed} {deeds front back : List Deed} {event : String}
  {listener : Listener}

theorem latest_append : latest known (front ++ back) = latest (latest known front) back :=
  List.foldl_append

theorem told_append :
    Told known (front ++ back) ↔ Told known front ∧ Told (latest known front) back := by
  induction front generalizing known with
  | nil => simp [Told, latest]
  | cons d front ih => simp only [List.cons_append, Told, ih, and_assoc, latest, List.foldl_cons]

theorem Told.before (told : Told known (front ++ d :: back)) :
    d.before.listener? = latest known front := (told_append.mp told).2.1

theorem taking_registered (registers : d.registers = some (event, listener)) :
    d.taking known event = some listener := by
  simp [taking, registers]

theorem taking_other (other : ∀ listener, d.registers ≠ some (event, listener)) :
    d.taking known event = known event := by
  unfold taking
  split
  · rename_i given listener registers
    refine if_neg fun same => other listener ?_
    rw [registers, same]
  · rfl

theorem latest_untouched
    (untouched : ∀ m ∈ deeds, ∀ listener, m.registers ≠ some (event, listener)) :
    latest known deeds event = known event := by
  induction deeds generalizing known with
  | nil => rfl
  | cons d rest ih =>
    have later : latest (d.taking known) rest event = d.taking known event :=
      ih fun m among => untouched m (List.mem_cons_of_mem _ among)
    exact later.trans (taking_other (untouched d List.mem_cons_self))

theorem isSome_taking (there : (known event).isSome = true) :
    (d.taking known event).isSome = true := by
  unfold taking
  split
  · split
    · rfl
    · exact there
  · exact there

theorem isSome_latest (there : (known event).isSome = true) :
    (latest known deeds event).isSome = true := by
  induction deeds generalizing known with
  | nil => exact there
  | cons d rest ih => exact ih (isSome_taking there)

end Latest

theorem act_listener {s t : Signals} {action : Action} (acts : s.act action = some t)
    (given : Dispatched) (inner : List Deed) :
    t.listener? = (Deed.mk action s given inner).taking s.listener? := by
  funext event
  cases action with
  | dispatch other => cases acts
  | register other label actions =>
    cases acts
    exact listener?_put s other _ event
  | install =>
    cases acts
    exact listener?_put s.pushFlag failEvent _ event
  | _ =>
    cases acts
    rfl

mutual

theorem told_of_lawful : ∀ {d : Deed}, Deed.Lawful d →
    Told d.before.listener? d.unfolded ∧
      d.given.signals.listener? = latest d.before.listener? d.unfolded
  | _, .acts acts => by
    rw [unfolded, unfoldedAll]
    exact ⟨⟨rfl, trivial⟩, act_listener acts _ _⟩
  | _, .unheard _ => by
    rw [unfolded, unfoldedAll]
    exact ⟨⟨rfl, trivial⟩, rfl⟩
  | _, .trips _ => by
    rw [unfolded, unfoldedAll]
    exact ⟨⟨rfl, trivial⟩, rfl⟩
  | _, .hears _ row => by
    -- the dispatch itself registers nothing, and what was done in it starts from its table
    have inner := told_of_row row
    rw [unfolded]
    exact ⟨⟨rfl, inner.1⟩, inner.2⟩

theorem told_of_row : ∀ {s t : Signals} {actions : List Action} {deeds : List Deed},
    Row s actions deeds t → Told s.listener? (unfoldedAll deeds) ∧
      t.listener? = latest s.listener? (unfoldedAll deeds)
  | _, _, _, _, .nil => by
    rw [unfoldedAll]
    exact ⟨trivial, rfl⟩
  | _, _, _, _, .cons lawful row => by
    have here := told_of_lawful lawful
    have later := told_of_row row
    rw [here.2] at later
    rw [unfoldedAll, told_append, latest_append]
    exact ⟨⟨here.1, later.1⟩, later.2⟩

end

mutual

theorem lawful_of_mem : ∀ {d : Deed}, Deed.Lawful d → ∀ m ∈ d.unfolded, Deed.Lawful m
  | _, .acts acts, m, among => by
    rw [unfolded, unfoldedAll] at among
    exact List.mem_singleton.mp among ▸ .acts acts
  | _, .unheard found, m, among => by
    rw [unfolded, unfoldedAll] at among
    exact List.mem_singleton.mp among ▸ .unheard found
  | _, .trips found, m, among => by
    rw [unfolded, unfoldedAll] at among
    exact List.mem_singleton.mp among ▸ .trips found
  | _, .hears found row, m, among => by
    rw [unfolded] at among
    rcases List.mem_cons.mp among with rfl | among
    · exact .hears found row
    · exact lawful_of_row row m among

/-- At any depth, every deed is done as signals do it. -/
theorem lawful_of_row : ∀ {s t : Signals} {actions : List Action} {deeds : List Deed},
    Row s actions deeds t → ∀ m ∈ unfoldedAll deeds, Deed.Lawful m
  | _, _, _, _, .nil, m, among => by
    rw [unfoldedAll] at among
    cases among
  | _, _, _, _, .cons lawful row, m, among => by
    rw [unfoldedAll] at among
    rcases List.mem_append.mp among with among | among
    · exact lawful_of_mem lawful m among
    · exact lawful_of_row row m among

end

mutual

theorem past_of_lawful : ∀ {d : Deed}, Deed.Lawful d →
    d.given.signals.past = (d.unfolded.map entry).reverse ++ d.before.past
  | _, @Deed.Lawful.acts action _ _ acts => by
    rw [unfolded, unfoldedAll]
    cases action <;> cases acts <;> rfl
  | _, .unheard _ => by
    rw [unfolded, unfoldedAll]
    rfl
  | _, .trips _ => by
    rw [unfolded, unfoldedAll]
    rfl
  | _, .hears _ row => by
    have inner := past_of_row row
    rw [unfolded, List.map_cons, List.reverse_cons, List.append_assoc]
    exact inner

/-- Every deed leaves its entry, in the order of time. -/
theorem past_of_row : ∀ {s t : Signals} {actions : List Action} {deeds : List Deed},
    Row s actions deeds t → t.past = ((unfoldedAll deeds).map entry).reverse ++ s.past
  | _, _, _, _, .nil => by
    rw [unfoldedAll]
    rfl
  | _, _, _, _, .cons lawful row => by
    rw [past_of_row row, past_of_lawful lawful, unfoldedAll, List.map_append, List.reverse_append,
      List.append_assoc]

end

theorem Row.actions {s t : Signals} {actions : List Action} {deeds : List Deed}
    (row : Row s actions deeds t) : deeds.map Deed.action = actions := by
  induction deeds generalizing s actions with
  | nil => cases row; rfl
  | cons d rest ih =>
    cases row with
    | cons _ row => exact congrArg _ (ih row)

namespace Deed

/-- The event is registered when the deed begins, or by the deed. -/
def Has (d : Deed) (event : String) : Prop :=
  d.before.isRegistered event = true ∨ ∃ listener, d.registers = some (event, listener)

theorem Has.taken {d : Deed} {event : String} (has : d.Has event) :
    (d.taking d.before.listener? event).isSome = true := by
  rcases has with there | ⟨listener, registers⟩
  · exact isSome_taking there
  · rw [taking_registered registers]
    rfl

end Deed

/-- A dispatch by what its event is registered for when it begins. -/
theorem Deed.Lawful.dispatches {d : Deed} (lawful : d.Lawful) {event : String}
    (action : d.action = .dispatch event) :
    match d.before.listener? event with
    | none => d.given = ⟨d.before.record (.dispatched event), [], false⟩ ∧ d.inner = []
    | some (.trip flag) =>
      d.given = ⟨(d.before.record (.dispatched event)).setFlag flag true, [], true⟩ ∧ d.inner = []
    | some (.reporter label actions) => d.given.ran = true ∧
      d.given.reports = .heard label :: d.inner.flatMap (Deed.reports label) ∧
      Row (d.before.record (.dispatched event)) actions d.inner d.given.signals := by
  cases lawful with
  | acts acts =>
    cases action
    cases acts
  | unheard found | trips found =>
    cases action
    simp [found]
  | hears found row =>
    cases action
    simp [found, row]

/-- What every dispatch of a run does, at any depth, when the run's deeds lead from `s` to `t`. -/
structure Reentrant (s : Signals) (deeds : List Deed) (t : Signals) : Prop where
  /-- A dispatch is a dispatch of these signals, and comes back. -/
  called : ∀ d ∈ unfoldedAll deeds, ∀ event, d.action = .dispatch event →
    ∃ fuel, d.before.dispatch fuel event = some d.given
  answers : ∀ d ∈ unfoldedAll deeds, ∀ event, d.action = .dispatch event →
    d.given.ran = d.before.isRegistered event
  /-- The listener that the dispatch found is called once and does each of its actions. -/
  runs : ∀ d ∈ unfoldedAll deeds, ∀ event label actions, d.action = .dispatch event →
    d.before.listener? event = some (.reporter label actions) →
      d.inner.map Deed.action = actions ∧
      Row (d.before.record (.dispatched event)) actions d.inner d.given.signals ∧
      d.given.reports = .heard label :: d.inner.flatMap (Deed.reports label)
  trips : ∀ d ∈ unfoldedAll deeds, ∀ event flag, d.action = .dispatch event →
    d.before.listener? event = some (.trip flag) → d.inner = [] ∧ d.given.reports = [] ∧
      d.given.signals = (d.before.record (.dispatched event)).setFlag flag true
  unheard : ∀ d ∈ unfoldedAll deeds, ∀ event, d.action = .dispatch event →
    d.before.isRegistered event = false → d.inner = [] ∧ d.given.reports = [] ∧
      d.given.signals.table = d.before.table ∧ d.given.signals.flags = d.before.flags
  /-- The listener of an event is the one that was registered last, wherever that was done: also in
  the listener that still runs. -/
  replaced : ∀ front r middle d back, unfoldedAll deeds = front ++ r :: (middle ++ d :: back) →
    ∀ event listener, r.registers = some (event, listener) →
      (∀ m ∈ middle, ∀ other, m.registers ≠ some (event, other)) →
        d.before.listener? event = some listener
  first : ∀ front d back, unfoldedAll deeds = front ++ d :: back → ∀ event,
    (∀ m ∈ front, ∀ listener, m.registers ≠ some (event, listener)) →
      d.before.listener? event = s.listener? event
  final : ∀ front r middle, unfoldedAll deeds = front ++ r :: middle → ∀ event listener,
    r.registers = some (event, listener) →
      (∀ m ∈ middle, ∀ other, m.registers ≠ some (event, other)) →
        t.listener? event = some listener
  /-- What is registered stays registered. -/
  begun : ∀ event, s.isRegistered event = true →
    (∀ d ∈ unfoldedAll deeds, d.before.isRegistered event = true) ∧ t.isRegistered event = true
  stays : ∀ front earlier middle later back,
    unfoldedAll deeds = front ++ earlier :: (middle ++ later :: back) → ∀ event,
      earlier.Has event → later.before.isRegistered event = true
  ends : ∀ d ∈ unfoldedAll deeds, ∀ event, d.Has event → t.isRegistered event = true

theorem Row.reentrant {s t : Signals} {actions : List Action} {deeds : List Deed}
    (row : Row s actions deeds t) : Reentrant s deeds t := by
  obtain ⟨told, last⟩ := told_of_row row
  have behind {front : List Deed} {d : Deed} {back : List Deed}
      (split : unfoldedAll deeds = front ++ d :: back) (event : String) :
      d.before.listener? event = latest s.listener? front event ∧
        t.listener? event = latest (d.taking d.before.listener?) back event := by
    rw [split] at told
    refine ⟨congrFun told.before event, ?_⟩
    rw [last, split, latest_append, ← told.before]
    rfl
  have dispatches {d : Deed} (among : d ∈ unfoldedAll deeds) {event : String}
      (action : d.action = .dispatch event) := (lawful_of_row row d among).dispatches action
  refine ⟨?_, ?_, ?_, ?_, ?_, ?_, ?_, ?_, ?_, ?_, ?_⟩
  · intro d among event action
    obtain ⟨given, before, result, inner⟩ := d
    cases action
    exact ⟨_, dispatch_of_lawful (lawful_of_row row _ among)⟩
  · intro d among event action
    have here := dispatches among action
    cases found : d.before.listener? event with
    | none =>
      simp only [found] at here
      simp [isRegistered, found, here.1]
    | some listener =>
      cases listener <;> (simp only [found] at here; simp [isRegistered, found, here.1])
  · intro d among event label actions action found
    have here := dispatches among action
    simp only [found] at here
    exact ⟨here.2.2.actions, here.2.2, here.2.1⟩
  · intro d among event flag action found
    have here := dispatches among action
    simp only [found] at here
    exact ⟨here.2, congrArg Dispatched.reports here.1, congrArg Dispatched.signals here.1⟩
  · intro d among event action free
    have here := dispatches among action
    have found : d.before.listener? event = none := by simpa [isRegistered] using free
    simp only [found] at here
    rw [here.1, here.2]
    exact ⟨rfl, rfl, rfl, rfl⟩
  · intro front r middle d back split event listener registers untouched
    have all : unfoldedAll deeds = (front ++ r :: middle) ++ d :: back := by
      rw [split, List.append_assoc, List.cons_append]
    rw [(behind all event).1, latest_append]
    exact (latest_untouched untouched).trans (taking_registered registers)
  · intro front d back split event untouched
    rw [(behind split event).1, latest_untouched untouched]
  · intro front r middle split event listener registers untouched
    rw [(behind split event).2, latest_untouched untouched, taking_registered registers]
  · intro event there
    refine ⟨fun d among => ?_, ?_⟩
    · obtain ⟨front, back, split⟩ := List.append_of_mem among
      rw [isRegistered, (behind split event).1]
      exact isSome_latest there
    · rw [isRegistered, last]
      exact isSome_latest there
  · intro front earlier middle later back split event has
    have all : unfoldedAll deeds = (front ++ earlier :: middle) ++ later :: back := by
      rw [split, List.append_assoc, List.cons_append]
    have found : earlier.before.listener? = latest s.listener? front :=
      funext fun other => (behind split other).1
    have lasts : (latest (earlier.taking earlier.before.listener?) middle event).isSome = true :=
      isSome_latest has.taken
    rw [isRegistered, (behind all event).1, latest_append, ← found]
    exact lasts
  · intro d among event has
    obtain ⟨front, back, split⟩ := List.append_of_mem among
    rw [isRegistered, (behind split event).2]
    exact isSome_latest has.taken

/-- What a caller's calls come to, whenever they come back: deeds in which every dispatch, at any
depth, runs the listener that was registered last before the dispatch began. -/
theorem calls_reentrant (caller : String) (calls : List Action) (s t : Signals)
    (reports : List Report) :
    (∃ fuel, perform (dispatch fuel) caller calls s = some (t, reports)) ↔
      ∃ deeds, Row s calls deeds t ∧ reports = deeds.flatMap (Deed.reports caller) ∧
        Reentrant s deeds t := by
  constructor
  · rintro ⟨fuel, ran⟩
    obtain ⟨deeds, row, heard, _⟩ := row_of_perform (lawful_of_dispatch fuel) ran
    exact ⟨deeds, row, heard, row.reentrant⟩
  · rintro ⟨deeds, row, rfl, _⟩
    exact ⟨_, perform_of_row caller row⟩

/-- A listener that gives its own event away and calls it again calls the new listener, and runs
on. -/
example : (perform (dispatch 3) "main"
    [.register "FAIL" "old" [.register "FAIL" "new" [], .dispatch "FAIL", .dispatch "LATE"],
      .dispatch "FAIL", .dispatch "FAIL"] .empty).map Prod.snd =
    some [.heard "old", .heard "new", .relayed "old" "FAIL" true, .relayed "old" "LATE" false,
      .relayed "main" "FAIL" true, .heard "new", .relayed "main" "FAIL" true] := by decide

end NodeHarness
