import NodeHarness.Proofs.Acts
import NodeHarness.Proofs.Points
import NodeHarness.Proofs.Verdicts

/-! Failure of printers. A printer has a flag of its own: a fatal stop on it sets the flag, and so
does a sub-test that was run from it and failed. A sub-test passes when its body returned and its
flag is unset, so a failure reaches every handle above the one on which it came about. -/
namespace NodeHarness

def Handle.place? : Handle → Option Nat
  | .recorder _ => none
  | .printer _ place => some place

def Happening.Fails (place : Nat) : Happening → Prop
  | .stopped on _ => on.place? = some place
  | .returned parent _ passed => passed = false ∧ parent.place? = some place
  | _ => False

theorem Happening.not_fails {h : Happening} (plain : h.isPlain = true) (place : Nat) :
    ¬ h.Fails place := by
  cases h with
  | stopped on message => cases plain
  | returned parent sub passed => cases plain
  | _ => exact id

namespace World

/-- The flags are set that something made fail, and no others. -/
def Told (w : World) : Prop :=
  ∀ place, w.failedAt place = true ↔ ∃ h ∈ w.history, h.Fails place

theorem length_failures (w : World) : w.failures.length = w.printers.length := List.length_map _

theorem failedAt_setFailed (w : World) (place other : Nat) :
    (w.setFailed place).failedAt other =
      if other = place ∧ place < w.printers.length then true else w.failedAt other := by
  rw [failedAt_eq, failures_setFailed, getD_set, length_failures, failedAt_eq]

theorem failedAt_addPrinter (w : World) (place : Nat) :
    w.addPrinter.1.failedAt place = w.failedAt place := by
  rw [failedAt_eq, failures_addPrinter, getD_concat, failedAt_eq]

theorem lt_of_failedAt {w : World} {place : Nat} (failed : w.failedAt place = true) :
    place < w.printers.length := by
  refine Decidable.byContradiction fun outside => ?_
  have beyond : w.failures[place]? = none :=
    List.getElem?_eq_none (Nat.le_of_not_lt (w.length_failures ▸ outside))
  rw [failedAt_eq, List.getD_eq_getElem?_getD, beyond] at failed
  cases failed

/-- What becomes of a world: printers and happenings are only added, and flags stay told. -/
structure Keeps (before after : World) : Prop where
  places : before.printers.length ≤ after.printers.length
  taken : before.notes = [] → after.notes = []
  grown : before.history <:+ after.history
  told : before.Told → after.Told

theorem Keeps.refl (w : World) : Keeps w w := ⟨Nat.le_refl _, id, List.suffix_rfl, id⟩

theorem Keeps.trans {first middle last : World} (a : Keeps first middle) (b : Keeps middle last) :
    Keeps first last :=
  ⟨Nat.le_trans a.places b.places, b.taken ∘ a.taken, a.grown.trans b.grown, b.told ∘ a.told⟩

/-- A flag that is set is never cleared. -/
theorem Keeps.failed {before after : World} (keeps : Keeps before after) (told : before.Told)
    {place : Nat} (failed : before.failedAt place = true) : after.failedAt place = true := by
  obtain ⟨h, among, fails⟩ := (told place).mp failed
  exact (keeps.told told place).mpr ⟨h, keeps.grown.subset among, fails⟩

theorem Told.plain {before after : World} (told : before.Told) (plain : Plain before after) :
    after.Told := by
  intro place
  obtain ⟨later, grown, all⟩ := plain.grown
  rw [failedAt_congr plain.failures, told place, grown]
  constructor
  · rintro ⟨h, among, fails⟩
    exact ⟨h, List.mem_append_right _ among, fails⟩
  · rintro ⟨h, among, fails⟩
    rcases List.mem_append.mp among with new | among
    · exact absurd fails (Happening.not_fails (all h new) place)
    · exact ⟨h, among, fails⟩

theorem Told.fail {before after : World} (told : before.Told) {cause : Happening} {place : Nat}
    (inside : place < before.printers.length) (history : after.history = cause :: before.history)
    (failures : after.failures = (before.setFailed place).failures)
    (fails : ∀ other, cause.Fails other ↔ other = place) : after.Told := by
  intro other
  rw [failedAt_congr failures, failedAt_setFailed, history]
  by_cases same : other = place
  · rw [if_pos ⟨same, inside⟩]
    exact iff_of_true rfl ⟨cause, List.mem_cons_self, (fails other).mpr same⟩
  · rw [if_neg (fun both => same both.1), told other]
    constructor
    · rintro ⟨h, among, others⟩
      exact ⟨h, List.mem_cons_of_mem _ among, others⟩
    · rintro ⟨h, among, others⟩
      rcases List.mem_cons.mp among with rfl | among
      · exact absurd ((fails other).mp others) same
      · exact ⟨h, among, others⟩

theorem Plain.places {before after : World} (plain : Plain before after) :
    after.printers.length = before.printers.length := by
  rw [← length_failures, plain.failures, length_failures]

def verdictLine (passed : Bool) (test : String) : String :=
  (if passed then "--- PASS: " else "--- FAIL: ") ++ test ++ " (<t>s)"

/-- The world behind the verdict on a sub-test that was run from the printer at `above`. -/
def judged (w : World) (parent sub : Handle) (above : Nat) (passed : Bool) : World :=
  ((if passed then w else w.setFailed above).note
    (.printed (verdictLine passed sub.name))).returned parent sub passed

theorem judged_history (w : World) (parent sub : Handle) (above : Nat) (passed : Bool) :
    (w.judged parent sub above passed).history =
      .returned parent sub passed :: .noted (.printed (verdictLine passed sub.name)) ::
        w.history := by
  cases passed <;> rfl

theorem judged_notes (w : World) (parent sub : Handle) (above : Nat) (passed : Bool) :
    (w.judged parent sub above passed).notes =
      .printed (verdictLine passed sub.name) :: w.notes := by
  cases passed <;> rfl

theorem judged_places (w : World) (parent sub : Handle) (above : Nat) (passed : Bool) :
    (w.judged parent sub above passed).printers.length = w.printers.length := by
  cases passed with
  | true => rfl
  | false => exact List.length_modify _ _ _

theorem judged_told {w : World} (told : w.Told) {parent sub : Handle} {above : Nat}
    (inside : above < w.printers.length) (known : parent.place? = some above) (passed : Bool) :
    (w.judged parent sub above passed).Told := by
  have printed : (w.note (.printed (verdictLine passed sub.name))).Told := told.plain (.note w _)
  cases passed with
  | true =>
    intro place
    have before := printed place
    rw [judged_history]
    refine before.trans ?_
    simp [Happening.Fails, World.note]
  | false =>
    refine printed.fail inside (judged_history w parent sub above false) rfl fun other => ?_
    simp [Happening.Fails, known, eq_comm]

end World

theorem Acts.told {name : String} {place : Nat} {before after : World}
    (acts : Acts (.printer name place) before after) (inside : place < before.printers.length)
    (told : before.Told) : after.Told := by
  rcases acts with plain | ⟨middle, message, plain, rfl⟩
  · exact told.plain plain
  · have within : place < middle.printers.length := plain.places ▸ inside
    refine (told.plain plain).fail within rfl rfl fun other => ?_
    simp [Happening.Fails, Handle.place?, eq_comm]

theorem Acts.places {name : String} {place : Nat} {before after : World}
    (acts : Acts (.printer name place) before after) :
    after.printers.length = before.printers.length := by
  rcases acts with plain | ⟨middle, message, plain, rfl⟩
  · exact plain.places
  · exact (List.length_modify _ _ _).trans plain.places

/-- The verdict on the sub-test at a place, if its body gave control back. -/
def Played.verdict (body : Played) (place : Nat) : Option Bool :=
  match body.halt with
  | none => some (!body.stage.world.failedAt place)
  | some halt => if halt.caught then some false else none

namespace Played

variable {body : Played} {place : Nat}

theorem verdict_eq_none :
    body.verdict place = none ↔ ∃ halt, body.halt = some halt ∧ halt.caught = false := by
  unfold verdict
  cases body.halt <;> simp

theorem verdict_eq_true :
    body.verdict place = some true ↔
      body.halt = none ∧ body.stage.world.failedAt place = false := by
  unfold verdict
  cases body.halt <;> simp

theorem verdict_eq_false :
    body.verdict place = some false ↔
      (body.halt = none ∧ body.stage.world.failedAt place = true) ∨
        ∃ halt, body.halt = some halt ∧ halt.caught = true := by
  unfold verdict
  cases body.halt <;> simp

end Played

theorem closeRun_printer (parent name : String) (above place before : Nat) (scope : Scope)
    (body : Played) :
    closeRun (.printer parent above) (.printer name place) before scope body =
      match body.verdict place with
      | none => ⟨[.run name body.traces [] none], scope, body.stage, body.halt⟩
      | some passed =>
        let w := body.stage.world.judged (.printer parent above) (.printer name place) above passed
        ⟨[.run name body.traces w.taken (some (passed, (Handle.printer parent above).facts w))],
          scope, (body.stage.withWorld w).clearNotes, none⟩ := by
  unfold closeRun Played.verdict
  cases ended : body.halt with
  | none =>
    cases failed : (body.stage.world.printerFlags place).failed <;>
      simp [Handle.dropPanic, Handle.conclude, World.failedAt, failed, World.judged,
        World.verdictLine, Handle.name]
  | some halt =>
    cases caught : halt.caught <;>
      simp [Handle.conclude, World.judged, World.verdictLine, Handle.name, caught]

/-- All contexts are on printers that are there, and no note waits to be taken. -/
structure OnPrinters (scope : Scope) (stage : Stage) : Prop where
  handles : ∀ on, ∃ name place, (scope.context on).handle = .printer name place ∧
    place < stage.world.printers.length
  taken : stage.world.notes = []

namespace OnPrinters

variable {scope : Scope} {stage : Stage}

theorem kept (fits : OnPrinters scope stage) {later : Stage}
    (keeps : stage.world.Keeps later.world) : OnPrinters scope later := by
  refine ⟨fun on => ?_, keeps.taken fits.taken⟩
  obtain ⟨name, place, handle, inside⟩ := fits.handles on
  exact ⟨name, place, handle, Nat.lt_of_lt_of_le inside keeps.places⟩

theorem leafKeeps (fits : OnPrinters scope stage) (on : String) (operation : Operation) :
    stage.world.Keeps (playLeaf on operation scope stage).stage.world := by
  obtain ⟨name, place, handle, inside⟩ := fits.handles on
  have acts := operation.exec_acts (scope.context on) scope stage
  rw [handle] at acts
  exact ⟨Nat.le_of_eq acts.places.symm, fun _ => rfl, playLeaf_grown on operation scope stage,
    acts.told inside⟩

theorem leafFits (fits : OnPrinters scope stage) (on : String) (operation : Operation) :
    OnPrinters (playLeaf on operation scope stage).scope
      (playLeaf on operation scope stage).stage := by
  have later := fits.kept (fits.leafKeeps on operation)
  refine ⟨fun name => ?_, later.taken⟩
  obtain ⟨source, _, same, _⟩ := leaf_source .ofRoot on operation scope stage name
  rw [same]
  exact later.handles source

theorem opened (fits : OnPrinters scope stage) (on sub : String) :
    ∃ name, (openRun on sub scope stage).handle = .printer name stage.world.printers.length ∧
      (openRun on sub scope stage).stage.world = stage.world.addPrinter.1 := by
  obtain ⟨name, place, handle, _⟩ := fits.handles on
  simp only [openRun, handle]
  exact ⟨_, rfl, rfl⟩

theorem openKeeps (fits : OnPrinters scope stage) (on sub : String) :
    stage.world.Keeps (openRun on sub scope stage).stage.world := by
  obtain ⟨name, _, world⟩ := fits.opened on sub
  rw [world]
  refine ⟨by simp [World.addPrinter], id, List.suffix_rfl, fun told place => ?_⟩
  rw [World.failedAt_addPrinter]
  exact told place

theorem openFits (fits : OnPrinters scope stage) (on sub : String) :
    OnPrinters (openRun on sub scope stage).scope (openRun on sub scope stage).stage := by
  have later := fits.kept (fits.openKeeps on sub)
  refine ⟨fun name => ?_, later.taken⟩
  rw [OnRecorder.openRun_context]
  split
  · obtain ⟨own, handle, world⟩ := fits.opened on sub
    exact ⟨own, _, handle, by simp [world, World.addPrinter]⟩
  · exact later.handles name

theorem closeKeeps (on sub : String) (stage : Stage) {body : Played}
    (fits : OnPrinters scope body.stage) :
    body.stage.world.Keeps (closing on sub scope stage body).stage.world := by
  obtain ⟨parent, above, handle, inside⟩ := fits.handles on
  have opened : ∃ name place, (openRun on sub scope stage).handle = .printer name place := by
    simp only [openRun, handle]
    exact ⟨_, _, rfl⟩
  obtain ⟨name, place, own⟩ := opened
  rw [closing, handle, own, closeRun_printer]
  cases body.verdict place with
  | none => exact .refl _
  | some passed =>
    have places := body.stage.world.judged_places (.printer parent above) (.printer name place)
      above passed
    refine ⟨Nat.le_of_eq places.symm, fun _ => rfl, ?_, fun told => ?_⟩
    · exact ⟨[_, _], (World.judged_history _ _ _ _ _).symm⟩
    · exact World.judged_told told inside rfl passed

theorem stageLaw_keeps : StageLaw OnPrinters fun stage later => stage.world.Keeps later.world where
  refl _ := .refl _
  trans := .trans
  kept fits keeps := fits.kept keeps
  leafFits on operation fits := fits.leafFits on operation
  leafGrows on operation fits := fits.leafKeeps on operation
  openFits on sub fits := fits.openFits on sub
  openGrows on sub fits := fits.openKeeps on sub
  closeGrows on sub _ stage _ fits := closeKeeps on sub stage fits

end OnPrinters
end NodeHarness
