import NodeHarness.Script

/-! Ledgers. What is done to a world is kept in its history, and the history tells the rest: the
notes that wait, the lines of the journal and its fatal stops. -/
namespace NodeHarness

namespace Happening

def note? : Happening → Option Note
  | .noted n => some n
  | _ => none

def line? : Happening → Option (String × String)
  | .line test text => some (test, text)
  | _ => none

/-- The fatal stop that a recorder keeps. -/
def stop? : Happening → Option FatalStop
  | .stopped (.recorder name) message => some ⟨name, message⟩
  | _ => none

theorem eq_of_stop? {h : Happening} {stop : FatalStop} (kept : h.stop? = some stop) :
    h = .stopped (.recorder stop.test) stop.message := by
  cases h with
  | stopped on message =>
    cases on with
    | recorder name =>
      cases kept
      rfl
    | printer name place => cases kept
  | _ => cases kept

end Happening

namespace World

/-- What was done between two worlds, the latest first, and what it tells of the journal. -/
structure Ledger (later : List Happening) (before after : World) : Prop where
  history : after.history = later ++ before.history
  lines : after.journal.lines = before.journal.lines ++ (later.filterMap Happening.line?).reverse
  fatals : after.journal.fatals = before.journal.fatals ++ (later.filterMap Happening.stop?).reverse

theorem Ledger.of_eq {before after : World} (history : after.history = before.history)
    (lines : after.journal.lines = before.journal.lines)
    (fatals : after.journal.fatals = before.journal.fatals) : Ledger [] before after :=
  ⟨history, by simpa using lines, by simpa using fatals⟩

theorem Ledger.trans {xs ys : List Happening} {first middle last : World}
    (a : Ledger xs first middle) (b : Ledger ys middle last) : Ledger (ys ++ xs) first last := by
  refine ⟨?_, ?_, ?_⟩
  · rw [b.history, a.history, List.append_assoc]
  · rw [b.lines, a.lines, List.filterMap_append, List.reverse_append, List.append_assoc]
  · rw [b.fatals, a.fatals, List.filterMap_append, List.reverse_append, List.append_assoc]

variable {P Q : Happening → Prop} {first middle last : World}

/-- Things of some kind were done, and the journal tells of them. -/
def Grows (P : Happening → Prop) (before after : World) : Prop :=
  ∃ later, Ledger later before after ∧ ∀ h ∈ later, P h

theorem Grows.nil (ledger : Ledger [] first last) : Grows P first last := ⟨[], ledger, by simp⟩

theorem Grows.trans (a : Grows P first middle) (b : Grows P middle last) : Grows P first last := by
  obtain ⟨xs, ledger, all⟩ := a
  obtain ⟨ys, behind, allBehind⟩ := b
  exact ⟨ys ++ xs, ledger.trans behind, List.forall_mem_append.mpr ⟨allBehind, all⟩⟩

theorem Grows.mono (weaker : ∀ h, P h → Q h) (a : Grows P first last) : Grows Q first last := by
  obtain ⟨later, ledger, all⟩ := a
  exact ⟨later, ledger, fun h member => weaker h (all h member)⟩

/-- Things of some kind were done, and what was noted waits to be taken. -/
def Adds (P : Happening → Prop) (before after : World) : Prop :=
  ∃ later, Ledger later before after ∧
    after.notes = later.filterMap Happening.note? ++ before.notes ∧ ∀ h ∈ later, P h

theorem Adds.of_eq (history : last.history = first.history)
    (lines : last.journal.lines = first.journal.lines)
    (fatals : last.journal.fatals = first.journal.fatals) (notes : last.notes = first.notes) :
    Adds P first last :=
  ⟨[], .of_eq history lines fatals, notes, by simp⟩

theorem Adds.refl (w : World) : Adds P w w := .of_eq rfl rfl rfl rfl

theorem Adds.trans (a : Adds P first middle) (b : Adds P middle last) : Adds P first last := by
  obtain ⟨xs, ledger, notes, all⟩ := a
  obtain ⟨ys, behind, notesBehind, allBehind⟩ := b
  refine ⟨ys ++ xs, ledger.trans behind, ?_, List.forall_mem_append.mpr ⟨allBehind, all⟩⟩
  rw [notesBehind, notes, List.filterMap_append, List.append_assoc]

theorem Adds.note (w : World) {n : Note} (kind : P (.noted n)) : Adds P w (w.note n) :=
  ⟨[.noted n], ⟨rfl, by simp [World.note, Happening.line?], by simp [World.note, Happening.stop?]⟩,
    rfl, List.forall_mem_singleton.mpr kind⟩

theorem Adds.returned (w : World) (parent sub : Handle) (passed : Bool)
    (kind : P (.returned parent sub passed)) : Adds P w (w.returned parent sub passed) :=
  ⟨[.returned parent sub passed], ⟨rfl, by simp [World.returned, Happening.line?],
    by simp [World.returned, Happening.stop?]⟩, rfl, List.forall_mem_singleton.mpr kind⟩

theorem Adds.grows (adds : Adds P first last) : Grows P first last := by
  obtain ⟨later, ledger, _, all⟩ := adds
  exact ⟨later, ledger, all⟩

/-- Notes that are taken from a world are still told by its history. -/
theorem Adds.cleared (adds : Adds P first last) (stage : Stage) :
    Grows P first (stage.withWorld last).clearNotes.world := by
  obtain ⟨later, ledger, all⟩ := adds.grows
  exact ⟨later, ⟨ledger.history, ledger.lines, ledger.fatals⟩, all⟩

/-- All that was noted so far, in order of time. -/
def noted (w : World) : List Note := (w.history.filterMap Happening.note?).reverse

theorem mem_noted {w : World} {n : Note} : n ∈ w.noted ↔ .noted n ∈ w.history := by
  rw [noted, List.mem_reverse, List.mem_filterMap]
  constructor
  · rintro ⟨h, member, told⟩
    cases h <;> cases told
    exact member
  · exact fun member => ⟨_, member, rfl⟩

theorem Adds.noted (adds : Adds P first last) (taken : first.notes = []) :
    last.noted = first.noted ++ last.taken := by
  obtain ⟨later, ledger, notes, _⟩ := adds
  rw [World.noted, ledger.history, List.filterMap_append, List.reverse_append, World.taken, notes,
    taken, List.append_nil]
  rfl

end World

open World

theorem Handle.child_ledger (h : Handle) (sub : String) (w : World) :
    Ledger [] w (h.child sub w).2 := by
  cases h <;> exact .of_eq rfl rfl rfl

theorem openRun_ledger (on sub : String) (scope : Scope) (stage : Stage) :
    Ledger [] stage.world (openRun on sub scope stage).stage.world :=
  Handle.child_ledger (scope.context on).handle sub stage.world

end NodeHarness
