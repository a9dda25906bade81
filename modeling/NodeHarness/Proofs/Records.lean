import NodeHarness.Proofs.FailureEvent
import NodeHarness.Proofs.Ledger
import NodeHarness.Proofs.Propagation

/-! What operations add to a world, by backend. On a native context nothing is added to the records
of the process; on a standalone one nothing reaches the handle, and only a failure writes a fatal
record, as the last thing it does before it ends the process. -/
namespace NodeHarness

open World

namespace Happening

/-- What may happen on contexts of a backend. A stop may also be asked of the handle itself. -/
def Allowed (backend : Backend) (handled failed : Prop) : Happening → Prop
  | .dispatched _ => True
  | .returned _ _ _ => True
  | .line _ _ => backend = .native
  | .stopped _ _ => backend = .native ∨ handled
  | .noted (.report _) => True
  | .noted (.printed text) =>
    backend = .native ∨ ∃ passed test, text = World.verdictLine passed test
  | .noted (.record _ _ _ fatal) => backend = .standalone ∧ (fatal = true → failed)
  | .noted .callSite => backend = .standalone
  | .noted (.logged _ _ _) => False

theorem Allowed.mono {backend : Backend} {handled failed handled' failed' : Prop}
    (handles : handled → handled') (fails : failed → failed') {h : Happening}
    (allowed : h.Allowed backend handled failed) : h.Allowed backend handled' failed' := by
  cases h with
  | stopped on message => exact allowed.imp_right handles
  | noted n =>
    cases n with
    | record level fields message fatal => exact ⟨allowed.1, fails ∘ allowed.2⟩
    | _ => exact allowed
  | _ => exact allowed

/-- What may happen whatever the backend is. -/
def Always (h : Happening) : Prop :=
  ∀ backend handled failed, h.Allowed backend handled failed

end Happening

namespace World

theorem filterMap_noted {α : Type} (f : Happening → Option α) (silent : ∀ n, f (.noted n) = none)
    (notes : List Note) : (notes.map Happening.noted).filterMap f = [] := by
  rw [List.filterMap_map, List.filterMap_eq_nil_iff]
  exact fun n _ => silent n

theorem dispatch_adds {backend : Backend} {handled failed : Prop} {w after : World} {event : String}
    (ran : w.dispatch event = .ok after) :
    Adds (Happening.Allowed backend handled failed) w after := by
  unfold dispatch at ran
  split at ran
  · cases ran
  · rename_i d _
    cases ran
    refine ⟨(d.reports.map .report).reverse.map .noted ++ [.dispatched event], ⟨?_, ?_, ?_⟩, ?_, ?_⟩
    · simp
    · rw [List.filterMap_append, filterMap_noted Happening.line? fun _ => rfl]
      simp [Happening.line?]
    · rw [List.filterMap_append, filterMap_noted Happening.stop? fun _ => rfl]
      simp [Happening.stop?]
    · have all : Happening.note? ∘ Happening.noted = some := rfl
      rw [List.filterMap_append, List.filterMap_map, all, List.filterMap_some]
      simp [Happening.note?]
    · intro h member
      rcases List.mem_append.mp member with heard | called
      · obtain ⟨note, reported, rfl⟩ := List.mem_map.mp heard
        obtain ⟨report, _, rfl⟩ := List.mem_map.mp (List.mem_reverse.mp reported)
        exact trivial
      · rw [List.mem_singleton.mp called]
        exact trivial

end World

section Backends

variable {backend : Backend} {handled failed : Prop}

theorem Handle.log_adds (h : Handle) (line : String) (w : World) (native : backend = .native) :
    Adds (Happening.Allowed backend handled failed) w (h.log line w) := by
  cases h with
  | recorder name =>
    refine ⟨[.line name line], ⟨rfl, rfl, ?_⟩, rfl, List.forall_mem_singleton.mpr native⟩
    simp [Handle.log, Happening.stop?]
  | printer name place => exact .note w (.inl native)

theorem Handle.fatal_adds (h : Handle) (message : String) (w : World)
    (asked : backend = .native ∨ handled) :
    Adds (Happening.Allowed backend handled failed) w (h.fatal message w).2 := by
  refine ⟨[.stopped h message], ?_, ?_, List.forall_mem_singleton.mpr asked⟩
  · cases h with
    | recorder name => exact ⟨rfl, by simp [Handle.fatal, Happening.line?], rfl⟩
    | printer name place =>
      exact ⟨rfl, by simp [Handle.fatal, setFailed, Happening.line?],
        by simp [Handle.fatal, setFailed, Happening.stop?]⟩
  · cases h <;> rfl

theorem Handle.parallel_adds (h : Handle) (w : World) :
    Adds (Happening.Allowed backend handled failed) w (h.parallel w) := by
  cases h <;> exact .of_eq rfl rfl rfl rfl

namespace Context

variable (c : Context) (message : String) (w : World)

theorem logCallSite_adds :
    Adds (Happening.Allowed c.backend handled failed) w (c.logCallSite w) := by
  unfold logCallSite
  split <;> rename_i same
  · exact Handle.log_adds _ _ _ same
  · exact .note w same

theorem emit_adds (level : Level) :
    Adds (Happening.Allowed c.backend handled failed) w (c.emit level message w) := by
  unfold emit
  split <;> rename_i same
  · exact (Handle.log_adds _ _ _ same).trans (Handle.log_adds _ _ _ same)
  · exact .note w ⟨same, fun impossible => by cases impossible⟩

theorem Speaks.adds {say : World → World} (speaks : c.Speaks say) :
    Adds (Happening.Allowed c.backend handled failed) w (say w) := by
  cases speaks with
  | silent => exact .refl w
  | emits => exact emit_adds c _ w _
  | emitsAtCallSite => exact (logCallSite_adds c w).trans (emit_adds c _ _ _)

theorem raise_adds (fails : failed) :
    Adds (Happening.Allowed c.backend handled failed) w (c.raise message w).2 := by
  unfold raise
  split <;> rename_i same
  · exact (Handle.log_adds _ _ _ same).trans (Handle.fatal_adds _ _ _ (.inl same))
  · exact .note w ⟨same, fun _ => fails⟩

theorem raiseAtCallSite_adds (fails : failed) :
    Adds (Happening.Allowed c.backend handled failed) w (c.raise message (c.logCallSite w)).2 :=
  (logCallSite_adds c w).trans (raise_adds c message _ fails)

theorem violate_adds {go : World → Halt × World} (gives : c.GivesUp go) (fails : failed) :
    Adds (Happening.Allowed c.backend handled failed) w (violate w go).2 := by
  unfold violate
  split
  · exact .refl w
  · rename_i after ran
    refine (dispatch_adds ran).trans ?_
    cases gives with
    | raises => exact raiseAtCallSite_adds c _ after fails
    | raisesWith =>
      -- the fields of the context do not matter to its backend
      exact (logCallSite_adds c after).trans (raise_adds (c.withFields _) _ _ fails)
    | asserts native => exact Handle.fatal_adds _ _ after (.inl native)

end Context

namespace Operation

/-- What an operation adds: a stop on a standalone handle must be asked of it, and a fatal record
must be that of a failure. -/
theorem exec_adds (operation : Operation) (c : Context) (scope : Scope) (stage : Stage) :
    Adds (Happening.Allowed c.backend (operation.onHandle = true)
        (operation.violates = true ∨
          operation.isAbort = true ∧ (operation.exec c scope stage).halt ≠ none))
      stage.world (operation.exec c scope stage).stage.world := by
  have refused (violated : operation.violates = true) :
      Adds (Happening.Allowed c.backend (operation.onHandle = true)
          (operation.violates = true ∨
            operation.isAbort = true ∧ (operation.exec c scope stage).halt ≠ none))
        stage.world (operation.exec c scope stage).stage.world := by
    obtain ⟨go, gives, same⟩ := operation.exec_violated c violated
    rw [same]
    exact Context.violate_adds c _ gives (.inl violated)
  cases operation with
  | say voice message => exact (sayAs_speaks c voice message).adds c _
  | fatal message => exact refused rfl
  | mustBeTrue value =>
    cases value with
    | true => exact .refl _
    | false => exact refused rfl
  | mustBeOk result =>
    cases result with
    | ok value => exact .refl _
    | error error => exact refused rfl
  | mustBeNone error =>
    cases error with
    | none => exact .refl _
    | some error => exact refused rfl
  | parallel => exact Handle.parallel_adds _ _
  | dispatch event =>
    simp only [exec]
    split
    · exact dispatch_adds ‹_›
    · exact .refl _
  | abortIfTripped flag =>
    simp only [exec, Context.abortIfTripped]
    split
    · exact Context.raiseAtCallSite_adds c _ _ (.inr ⟨rfl, Option.some_ne_none _⟩)
    · exact .refl _
  | requireTrue value message =>
    cases value with
    | true => exact .refl _
    | false => exact Handle.fatal_adds _ _ _ (.inr rfl)
  | failAssertion failure detail => exact Handle.fatal_adds _ _ _ (.inr rfl)
  | register event label actions => exact .of_eq rfl rfl rfl rfl
  | install flag => exact .of_eq rfl rfl rfl rfl
  | unwired flag => exact .of_eq rfl rfl rfl rfl
  | reset flag => exact .of_eq rfl rfl rfl rfl
  | _ => exact .refl _

end Operation

end Backends

theorem Handle.conclude_adds (parent sub : Handle) (before : Nat) (halted : Bool) (w : World) :
    Adds Happening.Always w (parent.conclude sub before halted w).2 := by
  cases sub with
  | recorder name => exact .refl w
  | printer name place =>
    simp only [conclude]
    split
    · exact .note w fun _ _ _ => .inr ⟨true, name, rfl⟩
    · cases parent with
      | recorder above => exact .note w fun _ _ _ => .inr ⟨false, name, rfl⟩
      | printer above flags =>
        have marked : Adds Happening.Always w (w.setFailed flags) := .of_eq rfl rfl rfl rfl
        exact marked.trans (.note _ fun _ _ _ => .inr ⟨false, name, rfl⟩)

/-- A sub-test is closed with a verdict, or hands on a halt and adds nothing. -/
theorem closeRun_closes (parent sub : Handle) (before : Nat) (scope : Scope) (body : Played) :
    (∃ w ended, Adds Happening.Always body.stage.world w ∧
      closeRun parent sub before scope body =
        ⟨[.run sub.name body.traces w.taken ended], scope, (body.stage.withWorld w).clearNotes,
          none⟩) ∨
    closeRun parent sub before scope body =
      ⟨[.run sub.name body.traces [] none], scope, body.stage, body.halt⟩ := by
  have closed (halted : Bool) : Adds Happening.Always body.stage.world
      ((parent.conclude sub before halted body.stage.world).2.returned parent sub
        (parent.conclude sub before halted body.stage.world).1) :=
    (Handle.conclude_adds parent sub before halted _).trans (.returned _ _ _ _ fun _ _ _ => trivial)
  unfold closeRun
  cases ended : body.halt with
  | none => exact .inl ⟨_, _, closed _, rfl⟩
  | some halt =>
    by_cases caught : halt.caught = true
    · simp only [caught, if_true]
      exact .inl ⟨_, _, closed true, rfl⟩
    · simp only [if_neg caught]
      exact .inr trivial

theorem playStep_closes (on sub : String) (body : List Step) (scope : Scope) (stage : Stage) :
    let opened := openRun on sub scope stage
    let played := playSteps body opened.scope opened.stage
    (∃ w ended, Adds Happening.Always played.stage.world w ∧
      playStep (.run on sub body) scope stage =
        ⟨[.run opened.handle.name played.traces w.taken ended], scope,
          (played.stage.withWorld w).clearNotes, none⟩) ∨
    playStep (.run on sub body) scope stage =
      ⟨[.run opened.handle.name played.traces [] none], scope, played.stage, played.halt⟩ := by
  rw [playStep_run]
  exact closeRun_closes _ _ _ scope _

theorem Handle.fatal_exit {h : Handle} {message : String} {w : World} {code : Nat} :
    (h.fatal message w).1 ≠ .exit code := by
  cases h <;> exact nofun

/-- The world behind a fatal record, which stands right behind its call site. -/
def World.wreck (w : World) (fields : Fields) (message : String) : World :=
  (w.note .callSite).note (.record .error fields.toJson message true)

theorem World.wreck_noted (w : World) (fields : Fields) (message : String) :
    (w.wreck fields message).noted =
      w.noted ++ [.callSite, .record .error fields.toJson message true] := by
  simp [World.wreck, World.note, World.noted, Happening.note?]

namespace Context

variable {c : Context}

theorem raiseAtCallSite_standalone (standalone : c.backend = .standalone) (message : String)
    (w : World) :
    c.raise message (c.logCallSite w) = (.exit 1, w.wreck c.fields message) := by
  simp only [raise, logCallSite, standalone]
  rfl

theorem raise_exit {message : String} {w : World} {code : Nat}
    (exits : (c.raise message w).1 = .exit code) : c.backend = .standalone := by
  unfold raise at exits
  split at exits
  · exact absurd exits Handle.fatal_exit
  · assumption

theorem violate_exit {w : World} {go : World → Halt × World} {code : Nat}
    (exits : (violate w go).1 = .exit code) : ∃ heard, (go heard).1 = .exit code := by
  unfold violate at exits
  split at exits
  · rename_i failed
    cases (dispatch_error failed).symm.trans exits
  · exact ⟨_, exits⟩

theorem validationFailure_exit {error check : String} {w : World} {code : Nat}
    (exits : (c.validationFailure error check w).1 = .exit code) : c.backend = .standalone := by
  obtain ⟨heard, exits⟩ := violate_exit exits
  split at exits
  · assumption
  · exact absurd exits Handle.fatal_exit

end Context

namespace Operation

/-- The error that a check tells along with the fields of its context. -/
def toldError : Operation → Option String
  | .mustBeOk (.error error) => some error
  | .mustBeNone (some error) => some error
  | _ => none

def failureFields (operation : Operation) (c : Context) : Fields :=
  match operation.toldError with
  | some error => c.fields.merge (Fields.empty.insert "error" (.text error))
  | none => c.fields

def failureText : Operation → String
  | .fatal message => message
  | .mustBeTrue _ => "must_be_true validation failure"
  | .mustBeOk _ => "must_be_ok validation failure"
  | .mustBeNone _ => "must_be_none validation failure"
  | .abortIfTripped _ => "aborted: another test reported a failure"
  | _ => ""

variable (operation : Operation) (c : Context) (scope : Scope) (stage : Stage)

/-- What a failing operation on a standalone context comes to. -/
structure Wrecks : Prop where
  halt : (operation.exec c scope stage).halt = some (.exit 1)
  world : ∃ heard : World,
    (stage.world.dispatch failEvent = .ok heard ∨ heard = stage.world) ∧
      (operation.exec c scope stage).stage.world =
        heard.wreck (operation.failureFields c) operation.failureText

/-- The failure event of a violated check does not come back. -/
structure Hangs : Prop where
  violated : operation.violates = true
  unheard : ∃ halt, stage.world.dispatch failEvent = .error halt
  halt : (operation.exec c scope stage).halt = some .endless

variable {operation c scope stage}

theorem wrecks_of_violate {go : World → Halt × World} (violated : operation.violates = true)
    (same : operation.exec c scope stage =
      checked scope stage (Context.violated (Context.violate stage.world go)))
    (goes : ∀ w, go w = (.exit 1, w.wreck (operation.failureFields c) operation.failureText)) :
    operation.Wrecks c scope stage ∨ operation.Hangs c scope stage := by
  unfold Context.violate at same
  cases ran : stage.world.dispatch failEvent with
  | ok heard =>
    simp only [ran, goes] at same
    exact .inl ⟨same ▸ rfl, heard, .inl ran, same ▸ rfl⟩
  | error halt =>
    simp only [ran, dispatch_error ran] at same
    exact .inr ⟨violated, ⟨halt, ran⟩, same ▸ rfl⟩

theorem exec_wrecks (standalone : c.backend = .standalone)
    (fails : operation.violates = true ∨
      operation.isAbort = true ∧ (operation.exec c scope stage).halt ≠ none) :
    operation.Wrecks c scope stage ∨ operation.Hangs c scope stage := by
  have raised (message : String) (w : World) :
      c.raise message (c.logCallSite w) = (.exit 1, w.wreck c.fields message) :=
    Context.raiseAtCallSite_standalone standalone message w
  -- the call site is that of the context, the fields are those of a derived one
  have withError (error message : String) (w : World) :
      (c.withFields (Fields.empty.insert "error" (.text error))).raise message (c.logCallSite w) =
        (.exit 1, w.wreck (c.fields.merge (Fields.empty.insert "error" (.text error))) message) :=
    Context.raiseAtCallSite_standalone (c := c.withFields _) standalone message w
  cases operation with
  | fatal message => exact wrecks_of_violate rfl rfl (raised message)
  | mustBeTrue value =>
    cases value with
    | true => simp [violates, isAbort] at fails
    | false =>
      refine wrecks_of_violate rfl rfl fun w => ?_
      rw [standalone]
      exact raised _ w
  | mustBeOk result =>
    cases result with
    | ok value => simp [violates, isAbort] at fails
    | error error =>
      refine wrecks_of_violate rfl rfl fun w => ?_
      rw [standalone]
      exact withError error _ w
  | mustBeNone error =>
    cases error with
    | none => simp [violates, isAbort] at fails
    | some error =>
      refine wrecks_of_violate rfl rfl fun w => ?_
      rw [standalone]
      exact withError error _ w
  | abortIfTripped flag =>
    cases tripped : stage.world.signals.tripped (stage.flag flag) with
    | true =>
      have same : (Operation.abortIfTripped flag).exec c scope stage =
          checked scope stage (Context.violated (.exit 1, stage.world.wreck c.fields
            "aborted: another test reported a failure")) := by
        simp only [exec, Context.abortIfTripped, tripped, if_true, raised]
      exact .inl ⟨same ▸ rfl, stage.world, .inr rfl, same ▸ rfl⟩
    | false => simp [violates, exec, Context.abortIfTripped, tripped, checked, Done.halt] at fails
  | _ => simp [violates, isAbort] at fails

/-- Only a failure on a standalone context ends the process. -/
theorem exec_exit {code : Nat} (ended : (operation.exec c scope stage).halt = some (.exit code)) :
    c.backend = .standalone ∧ (operation.violates = true ∨ operation.isAbort = true) := by
  cases operation with
  | fatal message =>
    obtain ⟨heard, exits⟩ := Context.violate_exit (Option.some.inj ended)
    exact ⟨Context.raise_exit exits, .inl rfl⟩
  | mustBeTrue value =>
    cases value with
    | true => cases ended
    | false =>
      obtain ⟨heard, exits⟩ := Context.violate_exit (Option.some.inj ended)
      refine ⟨?_, .inl rfl⟩
      split at exits
      · assumption
      · exact absurd exits Handle.fatal_exit
  | mustBeOk result =>
    cases result with
    | ok value => cases ended
    | error error => exact ⟨Context.validationFailure_exit (Option.some.inj ended), .inl rfl⟩
  | mustBeNone error =>
    cases error with
    | none => cases ended
    | some error => exact ⟨Context.validationFailure_exit (Option.some.inj ended), .inl rfl⟩
  | abortIfTripped flag =>
    simp only [exec, Context.abortIfTripped] at ended
    split at ended
    · exact ⟨Context.raise_exit (Option.some.inj ended), .inr rfl⟩
    · cases ended
  | dispatch event =>
    simp only [exec] at ended
    split at ended
    · cases ended
    · rename_i failed
      cases dispatch_error failed
      cases ended
  | requireTrue value message =>
    cases value with
    | true => cases ended
    | false => exact absurd (Option.some.inj ended) Handle.fatal_exit
  | failAssertion failure detail => exact absurd (Option.some.inj ended) Handle.fatal_exit
  | _ => cases ended

end Operation
end NodeHarness
