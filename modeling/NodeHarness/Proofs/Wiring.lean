import NodeHarness.Proofs.Acts

/-! What was done to signals says whether a failure flag is set: the failure event was dispatched
while the flag's own listener had it, and the flag was not reset since. Every act of a test or a
listener keeps this, in the middle of a dispatch too. -/
namespace NodeHarness

def Signal.creates : Signal → Option Nat
  | .installed flag => some flag
  | .made flag => some flag
  | _ => none

namespace Signals

/-- The flag whose listener has the failure event, by what was registered for it last. -/
def wired : List Signal → Option Nat
  | [] => none
  | .installed flag :: _ => some flag
  | .registered event :: older => if event = failEvent then none else wired older
  | .dispatched _ :: older => wired older
  | .made _ :: older => wired older
  | .reset _ :: older => wired older
  | .seen _ _ :: older => wired older

/-- The failure event was dispatched while the flag was wired, and the flag was not reset since. -/
def Due (flag : Nat) (past : List Signal) : Prop :=
  ∃ newer older, past = newer ++ .dispatched failEvent :: older ∧ wired older = some flag ∧
    .reset flag ∉ newer

def created (past : List Signal) : List Nat := past.filterMap Signal.creates

variable {past older newer : List Signal} {flag : Nat} {done : Signal}

theorem due_cons :
    Due flag (done :: past) ↔
      (done = .dispatched failEvent ∧ wired past = some flag) ∨
        (Due flag past ∧ done ≠ .reset flag) := by
  constructor
  · rintro ⟨newer, older, split, wires, unreset⟩
    cases newer with
    | nil =>
      obtain ⟨rfl, rfl⟩ := List.cons.inj split
      exact .inl ⟨rfl, wires⟩
    | cons first newer =>
      obtain ⟨rfl, rfl⟩ := List.cons.inj split
      obtain ⟨other, unreset⟩ := List.ne_and_not_mem_of_not_mem_cons unreset
      exact .inr ⟨⟨newer, older, rfl, wires, unreset⟩, other.symm⟩
  · rintro (⟨rfl, wires⟩ | ⟨⟨newer, older, rfl, wires, unreset⟩, other⟩)
    · exact ⟨[], past, rfl, wires, List.not_mem_nil⟩
    · exact ⟨done :: newer, older, rfl, wires,
        List.not_mem_cons_of_ne_of_not_mem other.symm unreset⟩

theorem not_due_nil : ¬ Due flag [] := by
  rintro ⟨newer, older, split, _⟩
  cases newer <;> cases split

theorem installed_of_wired (wires : wired past = some flag) : .installed flag ∈ past := by
  induction past with
  | nil => cases wires
  | cons done past ih =>
    cases done with
    | installed other =>
      cases wires
      exact List.mem_cons_self
    | registered event =>
      simp only [wired] at wires
      split at wires
      · cases wires
      · exact List.mem_cons_of_mem _ (ih wires)
    | _ => exact List.mem_cons_of_mem _ (ih wires)

theorem installed_of_due (due : Due flag past) : .installed flag ∈ past := by
  obtain ⟨newer, older, rfl, wires, _⟩ := due
  exact List.mem_append_right _ (List.mem_cons_of_mem _ (installed_of_wired wires))

theorem mem_created {flag : Nat} {done : Signal} (among : done ∈ past)
    (creates : done.creates = some flag) : flag ∈ created past :=
  List.mem_filterMap.mpr ⟨done, among, creates⟩

theorem created_cons (creates : done.creates = some flag) :
    created (done :: past) = flag :: created past := List.filterMap_cons_some creates

/-- Where flags are numbered apart, a flag came about once and in one way. -/
theorem created_once (apart : (created past).Nodup) {first second : Signal}
    (hereFirst : first ∈ past) (hereSecond : second ∈ past)
    (createsFirst : first.creates = some flag) (createsSecond : second.creates = some flag) :
    first = second := by
  induction past with
  | nil => cases hereFirst
  | cons done past ih =>
    have later : (created past).Nodup := by
      refine apart.sublist ?_
      exact (List.sublist_cons_self done past).filterMap _
    rcases List.mem_cons.mp hereFirst with rfl | restFirst
    · rcases List.mem_cons.mp hereSecond with rfl | restSecond
      · rfl
      · rw [created_cons createsFirst] at apart
        exact absurd (mem_created restSecond createsSecond) (List.nodup_cons.mp apart).1
    · rcases List.mem_cons.mp hereSecond with rfl | restSecond
      · rw [created_cons createsSecond] at apart
        exact absurd (mem_created restFirst createsFirst) (List.nodup_cons.mp apart).1
      · exact ih later restFirst restSecond

theorem not_wired_later (uninstalled : .installed flag ∉ newer)
    (displaced : wired older ≠ some flag) : wired (newer ++ older) ≠ some flag := by
  induction newer with
  | nil => exact displaced
  | cons done newer ih =>
    obtain ⟨other, rest⟩ := List.ne_and_not_mem_of_not_mem_cons uninstalled
    have behind := ih rest
    cases done with
    | installed given =>
      intro wires
      cases wires
      exact other rfl
    | registered event =>
      simp only [List.cons_append, wired]
      split
      · exact nofun
      · exact behind
    | _ => exact behind

theorem due_later (unreset : .reset flag ∉ newer) (due : Due flag older) :
    Due flag (newer ++ older) := by
  induction newer with
  | nil => exact due
  | cons done newer ih =>
    obtain ⟨other, rest⟩ := List.ne_and_not_mem_of_not_mem_cons unreset
    exact due_cons.mpr (.inr ⟨ih rest, other.symm⟩)

/-- A flag that was displaced is never tripped again: it stays as it was until it is reset. -/
theorem due_displaced (uninstalled : .installed flag ∉ newer)
    (displaced : wired older ≠ some flag) :
    Due flag (newer ++ older) ↔ Due flag older ∧ .reset flag ∉ newer := by
  refine ⟨fun due => ?_, fun ⟨due, unreset⟩ => due_later unreset due⟩
  induction newer with
  | nil => exact ⟨due, List.not_mem_nil⟩
  | cons done newer ih =>
    obtain ⟨_, rest⟩ := List.ne_and_not_mem_of_not_mem_cons uninstalled
    rcases due_cons.mp due with ⟨_, wires⟩ | ⟨due, other⟩
    · exact absurd wires (not_wired_later rest displaced)
    · obtain ⟨before, unreset⟩ := ih rest due
      exact ⟨before, List.not_mem_cons_of_ne_of_not_mem other.symm unreset⟩

theorem lookup_putListener (event : String) (listener : Listener)
    (table : List (String × Listener)) (other : String) :
    (putListener event listener table).lookup other =
      if other = event then some listener else table.lookup other := by
  have found (value : Listener) (rest : List (String × Listener)) :
      ((event, value) :: rest).lookup other =
        if other = event then some value else rest.lookup other := by
    by_cases same : other = event
    · simp [same]
    · rw [List.lookup_cons, beq_false_of_ne same, if_neg same]
  induction table with
  | nil => exact found listener []
  | cons entry rest ih =>
    obtain ⟨name, old⟩ := entry
    by_cases taken : name = event
    · subst taken
      rw [putListener, if_pos rfl, found, found]
      split <;> rfl
    · rw [putListener, if_neg taken, List.lookup_cons, List.lookup_cons, ih]
      by_cases here : other = name
      · simp [here, taken]
      · rw [beq_false_of_ne here]

theorem listener?_put (s : Signals) (event : String) (listener : Listener) (other : String) :
    (s.put event listener).listener? other =
      if other = event then some listener else s.listener? other :=
  lookup_putListener event listener s.table other

theorem tripped_pushFlag (s : Signals) (flag : Nat) : s.pushFlag.tripped flag = s.tripped flag :=
  getD_concat s.flags false flag

theorem tripped_setFlag (s : Signals) (flag : Nat) (state : Bool) (other : Nat) :
    (s.setFlag flag state).tripped other =
      if other = flag ∧ flag < s.flags.length then state else s.tripped other :=
  getD_set s.flags flag state other false

structure Faithful (s : Signals) : Prop where
  wires : ∀ flag, s.listener? failEvent = some (.trip flag) ↔ wired s.past = some flag
  only : ∀ event flag, s.listener? event = some (.trip flag) → event = failEvent
  trips : ∀ flag, s.tripped flag = true ↔ Due flag s.past
  looks : ∀ newer older flag state, s.past = newer ++ .seen flag state :: older →
    (state = true ↔ Due flag older)
  numbered : created s.past = (List.range s.flags.length).reverse

theorem empty_faithful : empty.Faithful where
  wires flag := by simp [empty, listener?, wired]
  only event flag found := by cases found
  trips flag := by simp [empty, tripped, not_due_nil]
  looks newer older flag state split := by cases newer <;> cases split
  numbered := rfl

theorem Faithful.apart {s : Signals} (faithful : s.Faithful) : (created s.past).Nodup := by
  rw [faithful.numbered]
  exact List.pairwise_reverse.mpr (List.nodup_range.imp Ne.symm)

theorem Faithful.wired_lt {s : Signals} (faithful : s.Faithful)
    (wires : wired s.past = some flag) : flag < s.flags.length := by
  have among := mem_created (installed_of_wired wires) rfl
  rw [faithful.numbered] at among
  simpa using among

/-- What doing one thing changes: the listener of the failure event, the flags that are set, and
the number of flags. -/
structure Does (s : Signals) (done : Signal) (t : Signals) : Prop where
  past : t.past = done :: s.past
  wires : ∀ flag, t.listener? failEvent = some (.trip flag) ↔ wired (done :: s.past) = some flag
  only : ∀ event flag, t.listener? event = some (.trip flag) → event = failEvent
  trips : ∀ flag, t.tripped flag = true ↔
    (done = .dispatched failEvent ∧ wired s.past = some flag) ∨
      (s.tripped flag = true ∧ done ≠ .reset flag)
  looks : ∀ flag state, done = .seen flag state → state = s.tripped flag
  numbered : created t.past = (List.range t.flags.length).reverse

theorem Does.faithful {s t : Signals} (does : Does s done t) (faithful : s.Faithful) :
    t.Faithful where
  wires flag := does.past ▸ does.wires flag
  only := does.only
  trips flag := by rw [does.trips, does.past, due_cons, faithful.trips]
  looks newer older flag state split := by
    rw [does.past] at split
    cases newer with
    | nil =>
      obtain ⟨rfl, rfl⟩ := List.cons.inj split
      rw [does.looks flag state rfl, faithful.trips]
    | cons first newer =>
      exact faithful.looks newer older flag state (List.cons.inj split).2
  numbered := does.numbered

/-- What these signals become tells what was done to them and keeps them faithful. -/
structure Leads (s t : Signals) : Prop where
  kept : s.Faithful → t.Faithful
  grown : s.past <:+ t.past

theorem Leads.refl (s : Signals) : Leads s s := ⟨id, List.suffix_rfl⟩

theorem Leads.trans {first middle last : Signals} (a : Leads first middle)
    (b : Leads middle last) : Leads first last :=
  ⟨fun faithful => b.kept (a.kept faithful), a.grown.trans b.grown⟩

theorem Leads.of_does {s t : Signals} (past : t.past = done :: s.past)
    (does : s.Faithful → Does s done t) : Leads s t :=
  ⟨fun faithful => (does faithful).faithful faithful, [done], past.symm⟩

theorem register_leads (s : Signals) (event label : String) (actions : List Action) :
    Leads s (s.register event (.reporter label actions)) := by
  refine .of_does rfl fun faithful => ⟨rfl, ?_, ?_, ?_, nofun, faithful.numbered⟩
  · intro flag
    change (s.put event (.reporter label actions)).listener? failEvent = _ ↔ _
    rw [listener?_put, wired]
    by_cases same : event = failEvent
    · simp [same]
    · rw [if_neg (Ne.symm same), if_neg same, faithful.wires]
  · intro other flag found
    change (s.put event (.reporter label actions)).listener? other = _ at found
    rw [listener?_put] at found
    split at found
    · cases found
    · exact faithful.only other flag found
  · intro flag
    simp [register, record, put, tripped]

theorem addFlag_leads (s : Signals) : Leads s s.addFlag.1 := by
  refine .of_does rfl fun faithful => ⟨rfl, faithful.wires, faithful.only, ?_, nofun, ?_⟩
  · intro flag
    change s.pushFlag.tripped flag = true ↔ _
    simp [tripped_pushFlag]
  · simp [addFlag, pushFlag, record, created, Signal.creates, List.range_succ,
      ← faithful.numbered]

theorem install_leads (s : Signals) : Leads s s.install.1 := by
  refine .of_does rfl fun faithful => ⟨rfl, ?_, ?_, ?_, nofun, ?_⟩
  · intro flag
    change (s.pushFlag.put failEvent (.trip s.flags.length)).listener? failEvent = _ ↔ _
    simp [listener?_put, wired]
  · intro event flag found
    change (s.pushFlag.put failEvent (.trip s.flags.length)).listener? event = _ at found
    rw [listener?_put] at found
    split at found
    · assumption
    · exact faithful.only event flag found
  · intro flag
    change s.pushFlag.tripped flag = true ↔ _
    simp [tripped_pushFlag]
  · -- the new flag has the next number
    simp [install, pushFlag, put, record, created, Signal.creates, List.range_succ,
      ← faithful.numbered]

theorem reset_leads (s : Signals) (flag : Nat) : Leads s (s.reset flag) := by
  refine .of_does rfl fun faithful => ⟨rfl, faithful.wires, faithful.only, ?_, nofun, ?_⟩
  · intro other
    change (s.setFlag flag false).tripped other = true ↔ _
    rw [tripped_setFlag]
    by_cases same : other = flag
    · subst same
      by_cases inside : other < s.flags.length
      · simp [inside]
      · -- a flag that is not there is not set
        have unset : s.tripped other = false := by
          simp [tripped, List.getD_eq_getElem?_getD,
            List.getElem?_eq_none (Nat.le_of_not_lt inside)]
        simp [inside, unset]
    · simp [same, Ne.symm same]
  · have length : (s.reset flag).flags.length = s.flags.length := List.length_set
    rw [length]
    exact faithful.numbered

theorem look_leads (s : Signals) (flag : Nat) : Leads s (s.look flag) := by
  refine .of_does rfl fun faithful => ⟨rfl, faithful.wires, faithful.only, ?_, ?_,
    faithful.numbered⟩
  · intro other
    change s.tripped other = true ↔ _
    simp
  · rintro other state ⟨⟩
    rfl

theorem call_leads (s : Signals) (event : String)
    (found : ∀ flag, s.listener? event ≠ some (.trip flag)) :
    Leads s (s.record (.dispatched event)) := by
  refine .of_does rfl fun faithful => ⟨rfl, faithful.wires, faithful.only, ?_, nofun,
    faithful.numbered⟩
  intro flag
  change s.tripped flag = true ↔ _
  -- the flag that has the event by the past has it in the table too, where it was not found
  have missed : ¬ (Signal.dispatched event = .dispatched failEvent ∧ wired s.past = some flag) := by
    rintro ⟨same, wires⟩
    cases same
    exact found flag ((faithful.wires flag).mpr wires)
  simp only [missed, false_or]
  simp

theorem trip_leads (s : Signals) (event : String) (flag : Nat)
    (found : s.listener? event = some (.trip flag)) :
    Leads s ((s.record (.dispatched event)).setFlag flag true) := by
  refine .of_does rfl fun faithful => ?_
  -- listeners of flags stand under the failure event only
  have same := faithful.only event flag found
  subst same
  have wires := (faithful.wires flag).mp found
  refine ⟨rfl, faithful.wires, faithful.only, ?_, nofun, ?_⟩
  · intro other
    rw [tripped_setFlag]
    change (if other = flag ∧ flag < s.flags.length then true else s.tripped other) = true ↔ _
    by_cases here : other = flag
    · simp [here, faithful.wired_lt wires, wires]
    · simp [here, wires, Ne.symm here]
  · have length : ((s.record (.dispatched failEvent)).setFlag flag true).flags.length =
        s.flags.length := List.length_set
    rw [length]
    exact faithful.numbered

section Listeners

variable {go : String → Signals → Option Dispatched}

theorem perform_leads (leads : ∀ event s d, go event s = some d → Leads s d.signals)
    (label : String) (actions : List Action) (s : Signals) {after : Signals × List Report}
    (ran : perform go label actions s = some after) : Leads s after.1 := by
  induction actions generalizing s after with
  | nil =>
    cases ran
    exact .refl s
  | cons action rest ih =>
    cases action with
    | register event other inner => exact (register_leads s event other inner).trans (ih _ ran)
    | install => exact (install_leads s).trans (ih _ ran)
    | addFlag => exact (addFlag_leads s).trans (ih _ ran)
    | reset flag => exact (reset_leads s flag).trans (ih _ ran)
    | look flag => exact (look_leads s flag).trans (ih _ ran)
    | dispatch event =>
      simp only [perform] at ran
      cases called : go event s with
      | none => simp [called] at ran
      | some d =>
        cases behind : perform go label rest d.signals with
        | none => simp [called, behind] at ran
        | some result =>
          simp only [called, behind, Option.some.injEq] at ran
          subst ran
          have later := ih d.signals behind
          exact (leads event s d called).trans later

/-- Listeners that call each other, to any depth, keep signals faithful. -/
theorem dispatch_leads (fuel : Nat) (event : String) (s : Signals) (d : Dispatched)
    (ran : s.dispatch fuel event = some d) : Leads s d.signals := by
  induction fuel generalizing event s d with
  | zero => cases ran
  | succ fuel ih =>
    simp only [dispatch] at ran
    cases found : s.listener? event with
    | none =>
      simp only [found, Option.some.injEq] at ran
      subst ran
      exact call_leads s event (by simp [found])
    | some listener =>
      cases listener with
      | trip flag =>
        simp only [found, Option.some.injEq] at ran
        subst ran
        exact trip_leads s event flag found
      | reporter label actions =>
        have called := call_leads s event (by simp [found])
        cases performed : perform (dispatch fuel) label actions (s.record (.dispatched event)) with
        | none => simp [found, performed] at ran
        | some result =>
          simp only [found, performed, Option.some.injEq] at ran
          subst ran
          exact called.trans (perform_leads ih label actions _ performed)

end Listeners

theorem Course.leads {s t : Signals} (course : s.Course t) : Leads s t := by
  induction course with
  | nil => exact .refl s
  | register event label actions _ ih => exact ih.trans (register_leads _ event label actions)
  | addFlag _ ih => exact ih.trans (addFlag_leads _)
  | install _ ih => exact ih.trans (install_leads _)
  | reset flag _ ih => exact ih.trans (reset_leads _ flag)
  | dispatch _ ran ih => exact ih.trans (dispatch_leads _ _ _ _ ran)

structure Exact (s : Signals) : Prop where
  trips : ∀ flag, s.tripped flag = true ↔ Due flag s.past
  -- what a listener saw in the middle of a dispatch was right at that moment
  looks : ∀ newer older flag state, s.past = newer ++ .seen flag state :: older →
    (state = true ↔ Due flag older)
  wires : ∀ flag, s.listener? failEvent = some (.trip flag) ↔ wired s.past = some flag
  -- every flag came about once, as a failure flag or as one that nothing sets
  apart : (created s.past).Nodup
  unwired : ∀ flag, .made flag ∈ s.past → s.tripped flag = false
  -- from a moment on at which the flag is there and does not have the event
  displaced : ∀ newer older flag, s.past = newer ++ older → flag ∈ created older →
    wired older ≠ some flag → (s.tripped flag = true ↔ Due flag older ∧ .reset flag ∉ newer)
  stays : ∀ newer older flag, s.past = newer ++ older → Due flag older → .reset flag ∉ newer →
    s.tripped flag = true

theorem Faithful.exact {s : Signals} (faithful : s.Faithful) : s.Exact where
  trips := faithful.trips
  looks := faithful.looks
  wires := faithful.wires
  apart := faithful.apart
  unwired flag made := by
    refine Bool.eq_false_iff.mpr fun set => ?_
    have installed := installed_of_due ((faithful.trips flag).mp set)
    cases created_once faithful.apart made installed rfl rfl
  displaced newer older flag split before displaced := by
    have apart := faithful.apart
    rw [split, created, List.filterMap_append] at apart
    have uninstalled : .installed flag ∉ newer := fun again =>
      (List.nodup_append.mp apart).2.2 flag (mem_created again rfl) flag before rfl
    rw [faithful.trips, split]
    exact due_displaced uninstalled displaced
  stays newer older flag split due unreset := by
    rw [faithful.trips, split]
    exact due_later unreset due

end Signals
end NodeHarness
