import NodeHarness.Proofs.Turns
import NodeHarness.Proofs.Effects

/-! Fatal stops in the journal. The journal of a play gains the stops that its turns were halted
with, in their order. -/
namespace NodeHarness

/-- The fatal stop that the turn was halted with; a sub-test hands none on. -/
def Turn.stops (t : Turn) : List FatalStop := stopsOf t.played.halt

theorem run_stops (names : Names) (on sub : String) (body : List Step) (scope : Scope)
    (stage : Stage) : (Turn.mk names (.run on sub body) scope stage).stops = [] := by
  rw [Turn.stops, Turn.played, playStep_run]
  cases ended : (closeRun (scope.context on).handle (openRun on sub scope stage).handle
      (openRun on sub scope stage).stage.world.journal.fatals.length scope
      (playSteps body (openRun on sub scope stage).scope
        (openRun on sub scope stage).stage)).halt with
  | none => rfl
  | some halt =>
    have free := closeRun_halt ended
    cases halt with
    | fatal test message => cases free
    | _ => rfl

/-- The journal of a play gains the stops of its turns, in their order. -/
theorem journal_law : PlayLaw (fun _ _ => True) fun first ts last =>
    last.world.journal.fatals = first.world.journal.fatals ++ ts.flatMap Turn.stops where
  nil stage := (List.append_nil _).symm
  append := by
    intro first middle last ts us before behind
    rw [behind, before, List.flatMap_append, List.append_assoc]
  leafScope _ _ _ _ := trivial
  openScope _ _ _ _ := trivial
  leaf := by
    intro names scope on operation stage _
    rw [(playLeaf_journaled on operation scope stage).fatals, List.flatMap_singleton, Turn.stops,
      Turn.played, playStep]
  run := by
    intro names scope ts on sub body stage _ inner
    rw [playStep_run, (closeRun_calm _ _ _ _ _).kept, inner, (openRun_calm _ _ _ _).kept,
      List.flatMap_cons, run_stops, List.nil_append]

end NodeHarness
