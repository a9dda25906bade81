import NodeHarness.Gate

/-! Safety of the gate. At most one claim on the gate exists at a time: a root that holds it, a
thread that has taken it for a root to be built, or a thread that has taken it back from a root and
has not opened it yet; and the gate is busy exactly when there is one. What every handle still owes
the gate is counted, so an acquisition is released once. While the gate is open and someone sleeps,
a wake-up is on its way. -/
namespace NodeHarness.Gate

def Stance.handle? : Stance → Option Nat
  | .opening handle => some handle
  | _ => none

def Stance.claims : Stance → Bool
  | .taken => true
  | .opening _ => true
  | _ => false

/-- On the way to wake a sleeper, or awake and about to look again. -/
def Stance.wakes : Stance → Bool
  | .notifying => true
  | .woken => true
  | _ => false

namespace State

def count (s : State) (p : Stance → Bool) : Nat := s.threads.countP p

/-- Roots that hold the gate, threads that took it for a root to be built, and threads that gave
it up and have not opened it yet. -/
def claims (s : State) : Nat := s.handles.countP Holder.holds + s.count Stance.claims

/-- Threads that are about to open the gate for a handle. -/
def openers (s : State) (handle : Nat) : Nat := s.count fun stance => stance.handle? = some handle

/-- The hold a handle still has, and the times the gate was opened for it. -/
def paid (s : State) (handle : Nat) : Nat :=
  (s.handles[handle]?.map fun h => h.holds.toNat + h.openings).getD 0

def acquired (s : State) (handle : Nat) : Nat :=
  (s.handles[handle]?.map fun h => h.isRoot.toNat).getD 0

end State

/-- What an event does, with the condition under which it can happen. -/
inductive Moved (s : State) : Event → State → Prop
  | asked {thread : Nat} : s.stance? thread = some .idle →
      Moved s (.ask thread) (s.setStance thread .asking)
  | slept {thread : Nat} {stance : Stance} : s.stance? thread = some stance →
      stance = .asking ∨ stance = .woken → s.busy = true →
      Moved s (.look thread) (s.setStance thread .sleeping)
  | took {thread : Nat} {stance : Stance} : s.stance? thread = some stance →
      stance = .asking ∨ stance = .woken → s.busy = false →
      Moved s (.look thread) { s.setStance thread .taken with busy := true }
  | built {thread : Nat} : s.stance? thread = some .taken →
      Moved s (.build thread) ((s.setStance thread .idle).addHandle .root)
  | made {thread : Nat} : s.stance? thread = some .idle →
      Moved s (.make thread) (s.addHandle .plain)
  | kept {e : Event} {thread handle : Nat} {h g : Holder} : s.stance? thread = some .idle →
      s.handles[handle]? = some h → h.holds = false → g.holds = false → g.isRoot = h.isRoot →
      g.openings = h.openings → Moved s e (s.setHandle handle g)
  | gaveUp {e : Event} {thread handle : Nat} {h g : Holder} : s.stance? thread = some .idle →
      s.handles[handle]? = some h → h.holds = true → g.holds = false → g.isRoot = h.isRoot →
      g.openings = h.openings →
      Moved s e ((s.setHandle handle g).setStance thread (.opening handle))
  | opened {thread handle : Nat} : s.stance? thread = some (.opening handle) →
      Moved s (.release thread) { s.setStance thread .notifying with
        busy := false
        handles := s.handles.modify handle fun h => { h with openings := h.openings + 1 } }
  | woke {thread other : Nat} : s.stance? thread = some .notifying →
      s.stance? other = some .sleeping →
      Moved s (.notify thread (some other)) ((s.setStance thread .idle).setStance other .woken)
  | alone {thread : Nat} : s.stance? thread = some .notifying → s.anyoneSleeps = false →
      Moved s (.notify thread none) (s.setStance thread .idle)

theorem surrender_moved {s : State} {e : Event} {thread handle : Nat} {h g : Holder}
    (idle : s.stance? thread = some .idle) (is : s.handles[handle]? = some h)
    (holds : g.holds = h.holds) (root : g.isRoot = h.isRoot) (openings : g.openings = h.openings) :
    Moved s e (s.surrender thread handle g) := by
  unfold State.surrender
  cases held : h.holds with
  | true =>
    rw [held] at holds
    simp only [holds, if_true]
    exact .gaveUp idle is held rfl root openings
  | false =>
    rw [held] at holds
    simp only [holds, Bool.false_eq_true, if_false]
    exact .kept idle is held rfl root openings

theorem moved_of_step {s t : State} {e : Event} (step : s.step e = some t) : Moved s e t := by
  cases e with
  | ask thread =>
    simp only [State.step, Option.ite_none_right_eq_some, Option.some.injEq] at step
    exact step.2 ▸ .asked step.1
  | look thread =>
    simp only [State.step, Option.ite_none_right_eq_some, Option.some.injEq] at step
    obtain ⟨stance, rfl⟩ := step
    have stands : ∃ stance, s.stance? thread = some stance ∧
        (stance = .asking ∨ stance = .woken) := by
      rcases stance with asking | woken
      · exact ⟨_, asking, .inl rfl⟩
      · exact ⟨_, woken, .inr rfl⟩
    obtain ⟨stance, is, may⟩ := stands
    unfold State.look
    split
    · exact .slept is may ‹_›
    · exact .took is may (by simpa using ‹¬ s.busy = true›)
  | build thread =>
    simp only [State.step, Option.ite_none_right_eq_some, Option.some.injEq] at step
    exact step.2 ▸ .built step.1
  | make thread =>
    simp only [State.step, Option.ite_none_right_eq_some, Option.some.injEq] at step
    exact step.2 ▸ .made step.1
  | mark thread handle =>
    simp only [State.step] at step
    split at step
    · rename_i h idle is
      split at step
      · cases step
      · cases step
        exact surrender_moved idle is rfl rfl rfl
    · cases step
  | drop thread handle unwinding =>
    simp only [State.step] at step
    split at step
    · rename_i h idle is
      split at step
      · cases step
      · cases step
        exact surrender_moved idle is rfl rfl rfl
    · cases step
  | release thread =>
    simp only [State.step] at step
    split at step
    · cases step
      exact .opened ‹_›
    · cases step
  | notify thread sleeper =>
    simp only [State.step] at step
    split at step
    · cases sleeper with
      | some other =>
        simp only [Option.ite_none_right_eq_some, Option.some.injEq] at step
        obtain ⟨sleeps, rfl⟩ := step
        exact .woke ‹_› (by simpa [State.isSleeping] using sleeps)
      | none =>
        simp only [Option.ite_none_left_eq_some, Option.some.injEq] at step
        obtain ⟨none, rfl⟩ := step
        exact .alone ‹_› (by simpa using none)
    · cases step

theorem countP_set_add {α : Type} {p : α → Bool} {xs : List α} {i : Nat} {x : α}
    (is : xs[i]? = some x) (y : α) :
    (xs.set i y).countP p + (p x).toNat = xs.countP p + (p y).toNat := by
  induction xs generalizing i with
  | nil => cases is
  | cons first rest ih =>
    cases i with
    | zero =>
      cases is
      cases before : p x <;> cases behind : p y <;> simp [before, behind]
    | succ i =>
      have later := ih is
      cases here : p first <;> simp [here] <;> omega

theorem held_modify (hs : List Holder) (handle : Nat) :
    (hs.modify handle fun h => { h with openings := h.openings + 1 }).countP Holder.holds =
      hs.countP Holder.holds := by
  induction hs generalizing handle with
  | nil => cases handle <;> rfl
  | cons first rest ih =>
    cases handle with
    | zero => rfl
    | succ handle => simp [List.countP_cons, ih]

namespace State

variable {s : State} {thread handle : Nat}

theorem stance?_other {other : Nat} {old stands : Stance} (is : s.stance? thread = some old)
    (other_is : s.stance? other = some stands) (differ : old ≠ stands) (new : Stance) :
    (s.setStance thread new).stance? other = some stands := by
  have apart : thread ≠ other := by
    rintro rfl
    exact differ (Option.some.inj (is.symm.trans other_is))
  rw [stance?, setStance, List.getElem?_set_ne apart]
  exact other_is

theorem count_setStance {old : Stance} (is : s.stance? thread = some old) (new : Stance)
    (p : Stance → Bool) :
    (s.setStance thread new).count p + (p old).toNat = s.count p + (p new).toNat :=
  countP_set_add is new

theorem count_kept {old new : Stance} {p : Stance → Bool} (is : s.stance? thread = some old)
    (same : p old = p new) : (s.setStance thread new).count p = s.count p := by
  have counted := count_setStance is new p
  rw [same] at counted
  exact Nat.add_right_cancel counted

theorem claims_setStance {old : Stance} (is : s.stance? thread = some old) (new : Stance) :
    (s.setStance thread new).claims + old.claims.toNat = s.claims + new.claims.toNat := by
  have counted := count_setStance is new Stance.claims
  have same : (s.setStance thread new).handles = s.handles := rfl
  rw [claims, claims, same]
  omega

/-- A thread that does not come to open the gate, and has not just opened it, pays nothing. -/
theorem owed_setStance {old new : Stance} (is : s.stance? thread = some old)
    (before : old.handle? = none) (behind : new.handle? = none) {other : Nat}
    (owed : s.paid other + s.openers other = s.acquired other) :
    (s.setStance thread new).paid other + (s.setStance thread new).openers other =
      (s.setStance thread new).acquired other := by
  have same : (s.setStance thread new).openers other = s.openers other :=
    count_kept is (by rw [before, behind])
  rw [same]
  exact owed

theorem openers_gaveUp (is : s.stance? thread = some .idle) (handle other : Nat) :
    (s.setStance thread (.opening handle)).openers other =
      s.openers other + (decide (handle = other)).toNat := by
  have counted := count_setStance is (.opening handle) fun stance => stance.handle? = some other
  simpa [Stance.handle?, openers] using counted

theorem openers_opened (is : s.stance? thread = some (.opening handle)) (other : Nat) :
    (s.setStance thread .notifying).openers other + (decide (handle = other)).toNat =
      s.openers other := by
  have counted := count_setStance is .notifying fun stance => stance.handle? = some other
  simpa [Stance.handle?, openers] using counted

theorem claims_setHandle {h : Holder} (is : s.handles[handle]? = some h) (g : Holder) :
    (s.setHandle handle g).claims + h.holds.toNat = s.claims + g.holds.toNat := by
  have counted : (s.setHandle handle g).handles.countP Holder.holds + h.holds.toNat =
      s.handles.countP Holder.holds + g.holds.toNat := countP_set_add is g
  have same : (s.setHandle handle g).count Stance.claims = s.count Stance.claims := rfl
  rw [claims, claims, same]
  omega

theorem claims_addHandle (s : State) (h : Holder) :
    (s.addHandle h).claims = s.claims + h.holds.toNat := by
  have same : (s.addHandle h).count Stance.claims = s.count Stance.claims := rfl
  rw [claims, claims, same]
  cases held : h.holds <;> simp [addHandle, held] <;> omega

theorem paid_setHandle {h : Holder} (is : s.handles[handle]? = some h) (g : Holder) (other : Nat) :
    (s.setHandle handle g).paid other =
      if handle = other then g.holds.toNat + g.openings else s.paid other := by
  have inside := (List.getElem?_eq_some_iff.mp is).1
  by_cases same : handle = other
  · subst same
    simp [paid, setHandle, inside]
  · simp [paid, setHandle, same, List.getElem?_set_ne]

theorem acquired_setHandle {h g : Holder} (is : s.handles[handle]? = some h)
    (root : g.isRoot = h.isRoot) : (s.setHandle handle g).acquired = s.acquired := by
  have inside := (List.getElem?_eq_some_iff.mp is).1
  funext other
  by_cases same : handle = other
  · subst same
    rw [acquired, acquired, is]
    simp [setHandle, inside, root]
  · simp [acquired, setHandle, same, List.getElem?_set_ne]

theorem owed_addHandle {h : Holder} (balanced : h.holds.toNat + h.openings = h.isRoot.toNat)
    {other : Nat} (owed : s.paid other + s.openers other = s.acquired other) :
    (s.addHandle h).paid other + (s.addHandle h).openers other =
      (s.addHandle h).acquired other := by
  have same : (s.addHandle h).openers other = s.openers other := rfl
  rw [same]
  rcases Nat.lt_trichotomy other s.handles.length with inside | last | beyond
  · simpa [paid, acquired, addHandle, List.getElem?_append_left inside] using owed
  · subst last
    simp [paid, acquired] at owed
    simp [paid, acquired, addHandle, balanced, owed]
  · have absent : s.handles[other]? = none := List.getElem?_eq_none (by omega)
    have still : (s.handles ++ [h])[other]? = none := List.getElem?_eq_none (by simp; omega)
    simpa [paid, acquired, addHandle, absent, still] using owed

theorem count_pos_iff {p : Stance → Bool} :
    0 < s.count p ↔ ∃ thread stance, s.stance? thread = some stance ∧ p stance = true := by
  rw [count, List.countP_pos_iff]
  constructor
  · rintro ⟨stance, member, stands⟩
    obtain ⟨thread, is⟩ := List.mem_iff_getElem?.mp member
    exact ⟨thread, stance, is, stands⟩
  · rintro ⟨thread, stance, is, stands⟩
    exact ⟨stance, List.mem_of_getElem? is, stands⟩

end State

/-- What holds in every state that can be reached. What a handle paid, with the threads that are
about to open the gate for it, is what was acquired for it. -/
structure Sound (s : State) : Prop where
  one : s.claims = s.busy.toNat
  owed : ∀ handle, s.paid handle + s.openers handle = s.acquired handle
  dropped : ∀ h ∈ s.handles, h.dropped = true → h.holds = false
  awake : s.busy = false → 0 < s.count (· = .sleeping) → 0 < s.count Stance.wakes

theorem start_sound (threads : Nat) : Sound (State.start threads) := by
  have none (p : Stance → Bool) (idle : p .idle = false) : (State.start threads).count p = 0 := by
    simp [State.count, State.start, List.countP_replicate, idle]
  constructor
  · rw [State.claims, none _ rfl]
    rfl
  · intro handle
    rw [State.openers, none _ rfl]
    rfl
  · intro h member
    cases member
  · intro _ sleeps
    rw [none _ rfl] at sleeps
    cases sleeps

section Moves

variable {s t : State} {e : Event}

theorem Moved.one (moved : Moved s e t) (one : s.claims = s.busy.toNat) :
    t.claims = t.busy.toNat := by
  cases moved with
  | asked is =>
    have claimed := State.claims_setStance is .asking
    exact claimed.trans one
  | slept is may busy =>
    have claimed := State.claims_setStance is .sleeping
    rcases may with rfl | rfl <;> exact claimed.trans one
  | took is may free =>
    have claimed := State.claims_setStance is .taken
    rw [one, free] at claimed
    rcases may with rfl | rfl <;> exact claimed
  | built is =>
    have claimed := State.claims_setStance is .idle
    rw [State.claims_addHandle]
    exact claimed.trans one
  | made is =>
    rw [State.claims_addHandle]
    exact one
  | @kept e thread handle h g idle is held given =>
    have claimed := State.claims_setHandle is g
    rw [held, given] at claimed
    exact claimed.trans one
  | @gaveUp e thread handle h g idle is held given =>
    have moved : (s.setHandle handle g).stance? thread = some .idle := idle
    have claimed := State.claims_setStance moved (.opening handle)
    have lost := State.claims_setHandle is g
    rw [held, given, one] at lost
    exact claimed.trans lost
  | @opened thread handle is =>
    have claimed := State.claims_setStance is .notifying
    rw [one] at claimed
    rw [State.claims, State.count, held_modify]
    have busy : s.busy.toNat ≤ 1 := Bool.toNat_le _
    change (s.setStance thread .notifying).claims = 0
    change _ + 1 = _ + 0 at claimed
    omega
  | @woke thread other is sleeps =>
    have claimed := State.claims_setStance is .idle
    have woken := State.claims_setStance (State.stance?_other is sleeps (by decide) .idle) .woken
    exact woken.trans (claimed.trans one)
  | alone is =>
    have claimed := State.claims_setStance is .idle
    exact claimed.trans one

theorem Moved.owed (moved : Moved s e t)
    (owed : ∀ handle, s.paid handle + s.openers handle = s.acquired handle) :
    ∀ handle, t.paid handle + t.openers handle = t.acquired handle := by
  intro other
  have before := owed other
  cases moved with
  | asked is => exact State.owed_setStance is rfl rfl before
  | slept is may busy =>
    exact State.owed_setStance is (by rcases may with rfl | rfl <;> rfl) rfl before
  | took is may free =>
    exact State.owed_setStance is (by rcases may with rfl | rfl <;> rfl) rfl before
  | built is => exact State.owed_addHandle rfl (State.owed_setStance is rfl rfl before)
  | made is => exact State.owed_addHandle rfl before
  | @kept e thread handle h g idle is held given root openings =>
    rw [State.paid_setHandle is, State.acquired_setHandle is root]
    by_cases same : handle = other
    · subst same
      have paid : s.paid handle = h.holds.toNat + h.openings := by simp [State.paid, is]
      rw [paid, held, ← given, ← openings] at before
      rw [if_pos rfl]
      exact before
    · rw [if_neg same]
      exact before
  | @gaveUp e thread handle h g idle is held given root openings =>
    have moved : (s.setHandle handle g).stance? thread = some .idle := idle
    have turned := State.openers_gaveUp moved handle other
    have unchanged : (s.setHandle handle g).openers other = s.openers other := rfl
    change (s.setHandle handle g).paid other + _ = (s.setHandle handle g).acquired other
    rw [turned, unchanged, State.paid_setHandle is, State.acquired_setHandle is root]
    by_cases same : handle = other
    · subst same
      have paid : s.paid handle = h.holds.toNat + h.openings := by simp [State.paid, is]
      rw [paid, held, ← openings] at before
      simp only [if_true, given, decide_true, Bool.toNat_true, Bool.toNat_false] at before ⊢
      omega
    · simp [same, before]
  | @opened thread handle is =>
    have turned := State.openers_opened is other
    change _ + (s.setStance thread .notifying).openers other = _
    cases present : s.handles[other]? with
    | none =>
      simp [State.paid, State.acquired, List.getElem?_modify, present] at before ⊢
      omega
    | some h =>
      simp only [State.paid, State.acquired, List.getElem?_modify, present] at before ⊢
      by_cases same : handle = other <;> simp [same] at turned before ⊢ <;> omega
  | @woke thread sleeper is sleeps =>
    have woken := State.stance?_other is sleeps (by decide) .idle
    exact State.owed_setStance woken rfl rfl (State.owed_setStance is rfl rfl before)
  | alone is => exact State.owed_setStance is rfl rfl before

theorem dropped_setHandle {handle : Nat} {g : Holder}
    (dropped : ∀ h ∈ s.handles, h.dropped = true → h.holds = false) (given : g.holds = false) :
    ∀ h ∈ (s.setHandle handle g).handles, h.dropped = true → h.holds = false := by
  intro other member
  rcases List.mem_or_eq_of_mem_set member with old | rfl
  · exact dropped other old
  · exact fun _ => given

theorem dropped_addHandle {new : Holder}
    (dropped : ∀ h ∈ s.handles, h.dropped = true → h.holds = false) (kept : new.dropped = false) :
    ∀ h ∈ (s.addHandle new).handles, h.dropped = true → h.holds = false := by
  intro other member
  rcases List.mem_append.mp member with old | added
  · exact dropped other old
  · rw [List.mem_singleton.mp added, kept]
    nofun

theorem Moved.dropped (moved : Moved s e t)
    (dropped : ∀ h ∈ s.handles, h.dropped = true → h.holds = false) :
    ∀ h ∈ t.handles, h.dropped = true → h.holds = false := by
  cases moved with
  | kept idle is held given => exact dropped_setHandle dropped given
  | gaveUp idle is held given => exact dropped_setHandle dropped given
  | built is => exact dropped_addHandle dropped rfl
  | made is => exact dropped_addHandle dropped rfl
  | @opened thread handle is =>
    intro other member
    obtain ⟨place, found⟩ := List.mem_iff_getElem?.mp member
    rw [List.getElem?_modify] at found
    obtain ⟨old, is, rfl⟩ := Option.map_eq_some_iff.mp found
    have unheld := dropped old (List.mem_of_getElem? is)
    split <;> exact unheld
  | _ => exact dropped

theorem awake_setStance {thread : Nat} {old new : Stance}
    (awake : 0 < s.count (· = .sleeping) → 0 < s.count Stance.wakes)
    (is : s.stance? thread = some old) (slept : old ≠ .sleeping ∧ new ≠ .sleeping)
    (same : old.wakes = new.wakes)
    (sleeps : 0 < (s.setStance thread new).count (· = .sleeping)) :
    0 < (s.setStance thread new).count Stance.wakes := by
  rw [State.count_kept is same]
  rw [State.count_kept is (by simp [slept])] at sleeps
  exact awake sleeps

/-- A thread goes to sleep only at a busy gate. The gate is opened only by a thread that then has
to notify, and whoever is notified wakes. -/
theorem Moved.awake (moved : Moved s e t)
    (awake : s.busy = false → 0 < s.count (· = .sleeping) → 0 < s.count Stance.wakes) :
    t.busy = false → 0 < t.count (· = .sleeping) → 0 < t.count Stance.wakes := by
  intro free sleeps
  cases moved with
  | asked is => exact awake_setStance (awake free) is (by decide) rfl sleeps
  | slept is may busy => exact absurd (busy.symm.trans free) (by decide)
  | took is may busy => cases free
  | built is => exact awake_setStance (awake free) is (by decide) rfl sleeps
  | made is => exact awake free sleeps
  | kept idle is held given => exact awake free sleeps
  | @gaveUp e thread handle h g idle is held given =>
    have moved : (s.setHandle handle g).stance? thread = some .idle := idle
    exact awake_setStance (awake free) moved (by simp) rfl sleeps
  | opened is =>
    have counted := State.count_setStance is .notifying Stance.wakes
    change 0 < (s.setStance _ .notifying).count Stance.wakes
    simp only [Stance.wakes, Bool.toNat_false, Bool.toNat_true] at counted
    omega
  | woke is sleeper =>
    have woken := State.stance?_other is sleeper (by decide) .idle
    have counted := State.count_setStance woken .woken Stance.wakes
    simp only [Stance.wakes, Bool.toNat_false, Bool.toNat_true] at counted
    omega
  | alone is nobody =>
    rw [State.count_kept is (by decide)] at sleeps
    obtain ⟨other, stance, found, sleeping⟩ := State.count_pos_iff.mp sleeps
    rw [of_decide_eq_true sleeping] at found
    have member : Stance.sleeping ∈ s.threads := List.mem_of_getElem? found
    simp [State.anyoneSleeps, member] at nobody

theorem Moved.sound (moved : Moved s e t) (sound : Sound s) : Sound t :=
  ⟨moved.one sound.one, moved.owed sound.owed, moved.dropped sound.dropped,
    moved.awake sound.awake⟩

theorem Run.sound {events : List Event} (run : Run s events t) (sound : Sound s) : Sound t := by
  induction run with
  | nil => exact sound
  | cons step _ ih => exact ih ((moved_of_step step).sound sound)

end Moves

section Reached

variable {s : State} {handle : Nat} {h : Holder}

theorem Sound.balance (sound : Sound s) (is : s.handles[handle]? = some h) :
    h.holds.toNat + h.openings + s.openers handle = h.isRoot.toNat := by
  have owed := sound.owed handle
  simpa [State.paid, State.acquired, is] using owed

/-- Two holds are two claims. -/
theorem Sound.serial (sound : Sound s) {other : Nat} {g : Holder}
    (is : s.handles[handle]? = some h) (other_is : s.handles[other]? = some g)
    (held : h.holds = true) (other_held : g.holds = true) : handle = other := by
  refine Decidable.byContradiction fun apart => ?_
  have without := State.claims_setHandle is .plain
  have still : (s.setHandle handle .plain).handles[other]? = some g := by
    rw [State.setHandle, List.getElem?_set_ne apart]
    exact other_is
  have second : 0 < (s.setHandle handle .plain).handles.countP Holder.holds :=
    List.countP_pos_iff.mpr ⟨g, List.mem_of_getElem? still, other_held⟩
  have plain : Holder.plain.holds = false := rfl
  have busy : s.busy.toNat ≤ 1 := Bool.toNat_le _
  rw [sound.one, held, plain, State.claims] at without
  simp only [Bool.toNat_true, Bool.toNat_false] at without
  omega

end Reached

structure Safe (s : State) : Prop where
  /-- The gate is busy exactly when there is one claim on it, and there are never two. -/
  busy : s.busy = true ↔ s.claims = 1
  single : s.claims ≤ 1
  /-- Two serial roots never run at once. -/
  serial : ∀ (i j : Nat) g h, s.handles[i]? = some g → s.handles[j]? = some h →
    g.holds = true → h.holds = true → i = j
  /-- The gate is opened for a root at most once, and exactly once when it was dropped and no
  thread is still about to do it. -/
  released : ∀ handle h, s.handles[handle]? = some h → h.isRoot = true →
    h.openings ≤ 1 ∧ (h.dropped = true → s.openers handle = 0 → h.openings = 1)
  /-- Handles of sub-tests and detached handles never hold the gate and never open it. -/
  plain : ∀ handle h, s.handles[handle]? = some h → h.isRoot = false →
    h.holds = false ∧ h.openings = 0 ∧ s.openers handle = 0
  /-- Nobody sleeps at an open gate unless a wake-up is on its way. -/
  awake : ¬ (s.busy = false ∧ .sleeping ∈ s.threads ∧
    ∀ stance ∈ s.threads, stance ≠ .notifying ∧ stance ≠ .woken)

theorem reachable_safe (threads : Nat) (events : List Event) (s : State)
    (run : Run (State.start threads) events s) : Safe s := by
  have sound := run.sound (start_sound threads)
  constructor
  · rw [sound.one]
    cases s.busy <;> decide
  · rw [sound.one]
    exact Bool.toNat_le _
  · intro i j g h is other_is
    exact sound.serial is other_is
  · intro handle h is root
    have balance := sound.balance is
    rw [root] at balance
    refine ⟨by simp at balance; omega, fun dropped none => ?_⟩
    rw [sound.dropped h (List.mem_of_getElem? is) dropped, none] at balance
    simpa using balance
  · intro handle h is root
    have balance := sound.balance is
    rw [root] at balance
    simp only [Bool.toNat_false, Nat.add_eq_zero_iff, Bool.toNat_eq_zero] at balance
    exact ⟨balance.1.1, balance.1.2, balance.2⟩
  · rintro ⟨free, sleeps, nobody⟩
    have sleeping : 0 < s.count (· = .sleeping) :=
      List.countP_pos_iff.mpr ⟨_, sleeps, by decide⟩
    obtain ⟨stance, member, wakes⟩ := List.countP_pos_iff.mp (sound.awake free sleeping)
    have neither := nobody stance member
    cases stance <;> simp_all [Stance.wakes]

/-- A root is marked parallel while another thread sleeps, and dropped while its thread unwinds;
the sleeper wakes, builds its own root and drops it. -/
def twoRoots : List Event :=
  [.ask 0, .look 0, .build 0, .ask 1, .look 1, .make 0, .mark 0 1, .mark 0 0, .release 0,
    .notify 0 (some 1), .drop 0 0 true, .look 1, .build 1, .drop 1 2 false, .release 1,
    .notify 1 none]

def twoRootsEnd : State :=
  ⟨false, [.idle, .idle],
    [⟨true, false, true, true, 1⟩, ⟨false, false, true, false, 0⟩, ⟨true, false, false, true, 1⟩]⟩

theorem twoRoots_safe : Run (State.start 2) twoRoots twoRootsEnd ∧ Safe twoRootsEnd := by
  have run : Run (State.start 2) twoRoots twoRootsEnd := by
    unfold twoRoots
    repeat' constructor
  exact ⟨run, reachable_safe 2 twoRoots twoRootsEnd run⟩

end NodeHarness.Gate
