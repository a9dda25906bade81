import NodeHarness.Context

/-! Histories. What is done to a world is put in front of its history, so two worlds of a run
differ by what was done between them. -/
namespace NodeHarness

namespace Happening

def isDispatch : Happening → Bool
  | .dispatched _ => true
  | _ => false

def dispatches (event : String) : Happening → Bool
  | .dispatched other => other == event
  | _ => false

theorem not_dispatches {event : String} {h : Happening} (calm : h.isDispatch = false) :
    h.dispatches event = false := by
  cases h with
  | dispatched other => cases calm
  | _ => rfl

end Happening

namespace World

/-- What was done to a world, in order, until it became another one. -/
def since (before after : World) : List Happening :=
  (after.history.take (after.history.length - before.history.length)).reverse

def dispatchCount (event : String) (w : World) : Nat :=
  w.history.countP (Happening.dispatches event)

/-- Things were done, but no event was dispatched. -/
def Quiet (before after : World) : Prop :=
  ∃ later, after.history = later ++ before.history ∧ ∀ h ∈ later, h.isDispatch = false

/-- An event was dispatched, and then things were done without another dispatch. -/
def Announced (event : String) (before after : World) : Prop :=
  ∃ middle : World, middle.history = .dispatched event :: before.history ∧ Quiet middle after

theorem since_append {before after : World} {later : List Happening}
    (grown : after.history = later ++ before.history) : since before after = later.reverse := by
  simp [since, grown]

theorem since_subset (before after : World) : since before after ⊆ after.history := by
  intro h member
  exact List.mem_of_mem_take (List.mem_reverse.mp member)

theorem Quiet.of_eq {before after : World} (same : after.history = before.history) :
    Quiet before after := ⟨[], same, by simp⟩

theorem Quiet.cons {before after : World} {h : Happening} (calm : h.isDispatch = false)
    (grown : after.history = h :: before.history) : Quiet before after :=
  ⟨[h], grown, by simpa using calm⟩

theorem Quiet.trans {first middle last : World} (a : Quiet first middle) (b : Quiet middle last) :
    Quiet first last := by
  obtain ⟨xs, grownA, calmA⟩ := a
  obtain ⟨ys, grownB, calmB⟩ := b
  refine ⟨ys ++ xs, by rw [grownB, grownA, List.append_assoc], ?_⟩
  intro h member
  rcases List.mem_append.mp member with member | member
  · exact calmB h member
  · exact calmA h member

theorem Announced.quiet {event : String} {first middle last : World}
    (a : Announced event first middle) (b : Quiet middle last) : Announced event first last := by
  obtain ⟨start, begun, calm⟩ := a
  exact ⟨start, begun, calm.trans b⟩

theorem countP_calm {event : String} {later : List Happening}
    (calm : ∀ h ∈ later, h.isDispatch = false) :
    later.countP (Happening.dispatches event) = 0 := by
  rw [List.countP_eq_zero]
  intro h member
  simp [Happening.not_dispatches (calm h member)]

theorem Quiet.since_calm {before after : World} (quiet : Quiet before after) :
    ∀ h ∈ since before after, h.isDispatch = false := by
  obtain ⟨later, grown, calm⟩ := quiet
  intro h member
  rw [since_append grown] at member
  exact calm h (List.mem_reverse.mp member)

theorem Announced.since_eq {event : String} {before after : World}
    (announced : Announced event before after) :
    ∃ later, since before after = .dispatched event :: later ∧
      ∀ h ∈ later, h.isDispatch = false := by
  obtain ⟨middle, begun, later, grown, calm⟩ := announced
  have all : after.history = (later ++ [.dispatched event]) ++ before.history := by
    rw [grown, begun, List.append_assoc]
    rfl
  refine ⟨later.reverse, by rw [since_append all]; simp, ?_⟩
  intro h member
  exact calm h (List.mem_reverse.mp member)

theorem Quiet.grown {before after : World} (quiet : Quiet before after) :
    before.history <:+ after.history := by
  obtain ⟨later, grown, _⟩ := quiet
  exact ⟨later, grown.symm⟩

theorem Announced.grown {before after : World} {event : String}
    (announced : Announced event before after) : before.history <:+ after.history := by
  obtain ⟨middle, begun, quiet⟩ := announced
  have start : before.history <:+ middle.history := ⟨[.dispatched event], begun.symm⟩
  exact start.trans quiet.grown

theorem dispatchCount_grown {before after : World} (grown : before.history <:+ after.history)
    (event : String) :
    after.dispatchCount event =
      before.dispatchCount event + (since before after).countP (Happening.dispatches event) := by
  obtain ⟨later, same⟩ := grown
  rw [since_append same.symm, List.countP_reverse, dispatchCount, ← same, List.countP_append,
    dispatchCount, Nat.add_comm]

theorem Quiet.dispatchCount_eq {before after : World} (quiet : Quiet before after)
    (event : String) : after.dispatchCount event = before.dispatchCount event := by
  rw [dispatchCount_grown quiet.grown, countP_calm quiet.since_calm, Nat.add_zero]

theorem dispatch_announces {w after : World} {event : String}
    (ran : w.dispatch event = .ok after) : Announced event w after := by
  unfold dispatch at ran
  split at ran
  · cases ran
  · cases ran
    refine ⟨{ w with history := .dispatched event :: w.history }, rfl, _, rfl, ?_⟩
    intro h member
    obtain ⟨note, _, rfl⟩ := List.mem_map.mp member
    rfl

end World
end NodeHarness
