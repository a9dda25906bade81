import NodeHarness.Proofs.Erasure
import NodeHarness.Proofs.Inheritance
import NodeHarness.Proofs.LogFrame

/-! Logging is transparent. A world without its log still has what is registered and flagged, every
stop and every mark, and all events in order, and log calls leave it alone. So a script is played
like the script without some of its log calls, and a native one that is spared trace calls is played
as if they had never been there. -/
namespace NodeHarness

/-- Dispatches, stops, verdicts and listener reports are events; what is written is not. -/
def Happening.isEvent : Happening → Bool
  | .line _ _ => false
  | .noted (.report _) => true
  | .noted _ => false
  | _ => true

namespace Operation

/-- The calls that only log. -/
def isLog : Operation → Bool
  | .say _ _ => true
  | _ => false

def isTrace : Operation → Bool
  | .say (.at .trace) _ => true
  | _ => false

end Operation

/-- What is left of the world without its log: no lines, no notes, and of its past the events. -/
def World.silenced (w : World) : World :=
  { w with
    journal := { w.journal with lines := [] }
    notes := []
    history := w.history.filter Happening.isEvent }

section Saying

variable (w : World) (h : Handle) (c : Context)

theorem log_silenced (line : String) : (h.log line w).silenced = w.silenced := by
  cases h <;> rfl

theorem logCallSite_silenced : (c.logCallSite w).silenced = w.silenced := by
  rw [Context.logCallSite]
  cases c.backend with
  | native => exact log_silenced w c.handle _
  | standalone => rfl

theorem emit_silenced (level : Level) (message : String) :
    (c.emit level message w).silenced = w.silenced := by
  rw [Context.emit]
  cases c.backend with
  | native => exact (log_silenced _ c.handle _).trans (log_silenced w c.handle _)
  | standalone => rfl

/-- A log call leaves no trace but in the log. -/
theorem speaks_silenced {say : World → World} (speaks : c.Speaks say) :
    (say w).silenced = w.silenced := by
  cases speaks with
  | silent => rfl
  | emits => exact emit_silenced w c _ _
  | emitsAtCallSite => exact (emit_silenced _ c _ _).trans (logCallSite_silenced w c)

end Saying

namespace Stage

def silenced (s : Stage) : Stage := s.withWorld s.world.silenced

/-- Two stages between steps that differ in their logs only: the same is registered and flagged, the
same stops and marks were kept by the journal and by the printers, and the same events came in the
same order. -/
structure Alike (a b : Stage) : Prop where
  patience : b.world.patience = a.world.patience
  signals : b.world.signals = a.world.signals
  flagNames : b.flagNames = a.flagNames
  fatals : b.world.journal.fatals = a.world.journal.fatals
  parallelCalls : b.world.journal.parallelCalls = a.world.journal.parallelCalls
  printers : b.world.printers = a.world.printers
  events : b.world.history.filter Happening.isEvent = a.world.history.filter Happening.isEvent
  taken : a.world.notes = []
  takenToo : b.world.notes = []

variable {a b d : Stage}

theorem alike_of_silenced (same : b.silenced = a.silenced) (taken : a.world.notes = [])
    (takenToo : b.world.notes = []) : a.Alike b where
  patience := congrArg (fun s => s.world.patience) same
  signals := congrArg (fun s => s.world.signals) same
  flagNames := congrArg (fun s => s.flagNames) same
  fatals := congrArg (fun s => s.world.journal.fatals) same
  parallelCalls := congrArg (fun s => s.world.journal.parallelCalls) same
  printers := congrArg (fun s => s.world.printers) same
  events := congrArg (fun s => s.world.history) same
  taken := taken
  takenToo := takenToo

theorem Alike.silenced (alike : a.Alike b) : b.silenced = a.silenced := by
  obtain ⟨patience, signals, flagNames, fatals, parallelCalls, printers, events, _, _⟩ := alike
  simp only [Stage.silenced, withWorld, World.silenced, *]

theorem Alike.symm (alike : a.Alike b) : b.Alike a :=
  alike_of_silenced alike.silenced.symm alike.takenToo alike.taken

theorem Alike.trans (first : a.Alike b) (later : b.Alike d) : a.Alike d :=
  alike_of_silenced (later.silenced.trans first.silenced) first.taken later.takenToo

theorem Alike.bare (alike : a.Alike b) : b.bare = a.bare := by
  obtain ⟨patience, signals, flagNames, fatals, parallelCalls, printers, _, taken, takenToo⟩ :=
    alike
  simp only [Stage.bare, withWorld, World.bare, *]

/-- Logs before one stage make no difference when they have the same events. -/
theorem alike_onto {s : Stage} {e f : Log}
    (events : f.history.filter Happening.isEvent = e.history.filter Happening.isEvent)
    (taken : s.world.notes = []) : (s.onto e).Alike (s.onto f) := by
  refine ⟨rfl, rfl, rfl, rfl, rfl, rfl, ?_, taken, taken⟩
  simp only [onto, withWorld, World.onto, List.filter_append, events]

end Stage

/-- A step behind two logs. -/
theorem Played.like_of_framed {m p q : Played} {e f : Log} (left : m.Framed e p)
    (right : m.Framed f q)
    (events : f.history.filter Happening.isEvent = e.history.filter Happening.isEvent)
    (taken : m.stage.world.notes = []) : p.Like Stage.Alike Trace.silenced q := by
  refine ⟨⟨right.scope.trans left.scope.symm, right.halt.trans left.halt.symm, ?_⟩,
    right.seen.trans left.seen.symm⟩
  rw [left.stage, right.stage]
  exact Stage.alike_onto events taken

section Steps

variable {scope : Scope} {a b : Stage}

theorem playLeaf_alike (on : String) (operation : Operation) (alike : a.Alike b) :
    (playLeaf on operation scope a).Like Stage.Alike Trace.silenced
      (playLeaf on operation scope b) := by
  have left := playLeaf_onto a.world.log on operation scope a.bare
  have right := playLeaf_onto b.world.log on operation scope b.bare
  rw [Stage.bare_onto] at left right
  rw [alike.bare] at right
  exact Played.like_of_framed left right alike.events rfl

theorem openRun_alike (on sub : String) (alike : a.Alike b) :
    (openRun on sub scope b).handle = (openRun on sub scope a).handle ∧
      (openRun on sub scope a).stage.Alike (openRun on sub scope b).stage := by
  have left := openRun_onto a.world.log on sub scope a.bare
  have right := openRun_onto b.world.log on sub scope b.bare
  rw [Stage.bare_onto] at left right
  rw [alike.bare] at right
  constructor
  · exact right.1.trans left.1.symm
  · rw [left.2, right.2]
    apply Stage.alike_onto alike.events
    exact (Handle.child_notes (scope.context on).handle sub a.bare.world).trans alike.taken

theorem closeRun_alike {p q : Played} (parent sub : Handle) (before : Nat) (scope : Scope)
    (body : p.EndsLike Stage.Alike q) :
    (closeRun parent sub before scope p).Like Stage.Alike Trace.silenced
      (closeRun parent sub before scope q) := by
  have left : p.stage = p.stage.bare.onto p.stage.world.log := p.stage.bare_onto.symm
  have right : q.stage = p.stage.bare.onto q.stage.world.log := by
    rw [← body.stage.bare, Stage.bare_onto]
  -- what was seen in the body is not looked at
  let middle : Played := ⟨[], scope, p.stage.bare, p.halt⟩
  apply Played.like_of_framed (m := closeRun parent sub before scope middle)
  · exact closeRun_onto parent sub before scope rfl left
  · exact closeRun_onto parent sub before scope body.halt right
  · exact body.stage.events
  · exact closeRun_taken parent sub before scope body.stage.taken

theorem playLeaf_silent (on : String) {operation : Operation} (log : operation.isLog = true)
    (taken : a.world.notes = []) :
    (playLeaf on operation scope a).halt = none ∧ (playLeaf on operation scope a).scope = scope ∧
      a.Alike (playLeaf on operation scope a).stage := by
  cases operation with
  | say voice message =>
    have silenced := speaks_silenced a.world _
      (Operation.sayAs_speaks (scope.context on) voice message)
    exact ⟨rfl, rfl, Stage.alike_of_silenced (congrArg a.withWorld silenced) taken rfl⟩
  | _ => cases log

end Steps

/-- Erasing log calls is lawful. -/
theorem logs_law : ErasureLaw Stage.Alike Trace.silenced Operation.isLog fun _ => True where
  scopes := ⟨fun _ _ _ _ => trivial, fun _ _ _ _ => trivial⟩
  symm := .symm
  trans := .trans
  leaf on operation _ alike := playLeaf_alike on operation alike
  erased on operation _ log alike := playLeaf_silent on log alike.taken
  unnamed names on operation log := by
    cases operation with
    | say voice message => rfl
    | _ => cases log
  opened on sub _ alike := openRun_alike on sub alike
  closed parent sub scope opened body := by
    rw [opened.fatals]
    exact closeRun_alike parent sub _ scope body

/-- All contexts are as native ones: their threshold is below trace records. -/
def Scope.Untraced (scope : Scope) : Prop := ∀ on, (scope.context on).level = .debug

theorem Scope.untraced_law : ScopeLaw fun _ scope => scope.Untraced where
  leafScope {names scope} on operation stage untraced name := by
    rw [playLeaf_scope]
    cases operation with
    | withFields fields target =>
      simp only [Scope.context_bind]
      split
      · exact untraced on
      · exact untraced name
    | _ => exact untraced name
  openScope {names scope} on sub stage untraced name := by
    simp only [openRun, Scope.context_bind]
    split
    · exact untraced on
    · exact untraced name

/-- The same stage, between steps. -/
structure Stage.Same (a b : Stage) : Prop where
  eq : b = a
  taken : a.world.notes = []

theorem playLeaf_untraced {scope : Scope} {stage : Stage} (on : String) {operation : Operation}
    (untraced : scope.Untraced) (trace : operation.isTrace = true)
    (taken : stage.world.notes = []) :
    (playLeaf on operation scope stage).halt = none ∧
      (playLeaf on operation scope stage).scope = scope ∧
      (playLeaf on operation scope stage).stage = stage := by
  have clear : stage.clearNotes = stage := by
    obtain ⟨w, names⟩ := stage
    change w.notes = [] at taken
    simp [Stage.clearNotes, Stage.withWorld, ← taken]
  cases operation with
  | say voice message =>
    cases voice with
    | «at» level =>
      cases level with
      | trace =>
        have silent : Operation.sayAs (scope.context on) (.at .trace) message stage.world =
            stage.world := by
          simp [Operation.sayAs, Context.logAt, untraced on, Level.enabledAt, Level.rank]
        refine ⟨rfl, rfl, ?_⟩
        refine Eq.trans ?_ clear
        exact congrArg (fun w => (stage.withWorld w).clearNotes) silent
      | _ => cases trace
    | _ => cases trace
  | _ => cases trace

/-- How a sub-test is closed does not depend on what was seen in its body. -/
theorem closeRun_same {p q : Played} (parent sub : Handle) (before : Nat) (scope : Scope)
    (body : p.EndsLike Stage.Same q) :
    (closeRun parent sub before scope p).Like Stage.Same Trace.shell
      (closeRun parent sub before scope q) := by
  obtain ⟨_, halt, stage, taken⟩ := body
  have given (halted : Bool) : (verdictGiven parent sub before scope halted p).Like Stage.Same
      Trace.shell (verdictGiven parent sub before scope halted q) := by
    unfold verdictGiven
    rw [stage]
    exact ⟨⟨rfl, rfl, rfl, rfl⟩, rfl⟩
  cases ended : p.halt with
  | none =>
    rw [closeRun_none _ _ _ _ ended, closeRun_none _ _ _ _ (halt.trans ended)]
    exact given false
  | some stop =>
    rw [closeRun_some _ _ _ _ ended, closeRun_some _ _ _ _ (halt.trans ended)]
    split
    · exact given true
    · exact ⟨⟨rfl, rfl, stage, taken⟩, rfl⟩

/-- Where nothing is traced, erasing trace calls is lawful, and changes nothing. -/
theorem traces_law : ErasureLaw Stage.Same Trace.shell Operation.isTrace Scope.Untraced where
  scopes := Scope.untraced_law
  symm := by
    rintro a b ⟨rfl, taken⟩
    exact ⟨rfl, taken⟩
  trans := by
    rintro a b c ⟨rfl, taken⟩ ⟨rfl, _⟩
    exact ⟨rfl, taken⟩
  leaf on operation _ same := by
    obtain ⟨rfl, taken⟩ := same
    exact ⟨⟨rfl, rfl, rfl, rfl⟩, rfl⟩
  erased on operation untraced trace same := by
    obtain ⟨halt, scopes, stage⟩ := playLeaf_untraced on untraced trace same.taken
    exact ⟨halt, scopes, stage, same.taken⟩
  unnamed names on operation trace := by
    cases operation with
    | say voice message => rfl
    | _ => cases trace
  opened on sub _ same := by
    obtain ⟨rfl, taken⟩ := same
    exact ⟨rfl, rfl, (Handle.child_notes _ _ _).trans taken⟩
  closed parent sub scope opened body := by
    obtain ⟨rfl, _⟩ := opened
    exact closeRun_same parent sub _ scope body

/-- Two scripts on the same fresh root. They take the same turns but for erased ones, come to stages
that are alike, and end with the same halt and the same exit code. -/
structure PlayedAlike (Alike : Stage → Stage → Prop) (look : Trace → Trace)
    (erasable : Operation → Bool) (patience : Nat) (kind : HandleKind) (backend : Backend)
    (name : String) (steps fewer : List Step) : Prop where
  turns : Aligned Alike look erasable (turnsFresh patience kind backend name steps)
    (turnsFresh patience kind backend name fewer)
  stage : Alike (playFresh patience kind backend name steps).stage
    (playFresh patience kind backend name fewer).stage
  halt : (playScript patience kind backend name fewer).halt =
    (playScript patience kind backend name steps).halt
  exitCode : (playScript patience kind backend name fewer).exitCode =
    (playScript patience kind backend name steps).exitCode

section Fresh

variable {patience : Nat} {kind : HandleKind} {backend : Backend} {name : String}
  {steps fewer : List Step}

theorem fresh_taken : (freshRoot patience kind name).2.notes = [] := by
  cases kind <;> rfl

/-- How a script ends is told from the halt of its steps, and from what dropping the root says. -/
theorem playScript_same
    (halt : (playFresh patience kind backend name fewer).halt =
      (playFresh patience kind backend name steps).halt)
    (dropped : ∀ (h : Handle) (origin : Origin) (unwinding : Bool),
      h.dropPanic origin unwinding (playFresh patience kind backend name fewer).stage.world =
        h.dropPanic origin unwinding (playFresh patience kind backend name steps).stage.world) :
    (playScript patience kind backend name fewer).halt =
        (playScript patience kind backend name steps).halt ∧
      (playScript patience kind backend name fewer).exitCode =
        (playScript patience kind backend name steps).exitCode := by
  unfold playScript
  simp only [halt, dropped]
  split <;> exact ⟨rfl, rfl⟩

theorem ErasureLaw.playedAlike {Alike : Stage → Stage → Prop} {look : Trace → Trace}
    {erasable : Operation → Bool} {Fits : Scope → Prop}
    (law : ErasureLaw Alike look erasable Fits)
    (drops : ∀ {a b}, Alike a b → ∀ (h : Handle) origin unwinding,
      h.dropPanic origin unwinding b.world = h.dropPanic origin unwinding a.world)
    (fits : Fits (Scope.ofRoot (.root backend (freshRoot patience kind name).1)))
    (alike : Alike ⟨(freshRoot patience kind name).2, []⟩ ⟨(freshRoot patience kind name).2, []⟩)
    (erases : Erases erasable steps fewer) :
    PlayedAlike Alike look erasable patience kind backend name steps fewer := by
  have compared := law.compares erases .ofRoot _ _ _ fits alike
  have ends : (playFresh patience kind backend name steps).EndsLike Alike
      (playFresh patience kind backend name fewer) := compared.ends
  obtain ⟨halt, exitCode⟩ := playScript_same ends.halt (drops ends.stage)
  exact ⟨compared.turns, ends.stage, halt, exitCode⟩

theorem Stage.Alike.dropPanic {a b : Stage} (alike : a.Alike b) (h : Handle) (origin : Origin)
    (unwinding : Bool) :
    h.dropPanic origin unwinding b.world = h.dropPanic origin unwinding a.world := by
  cases h with
  | recorder name => rfl
  | printer name place =>
    have flags : b.world.printerFlags place = a.world.printerFlags place :=
      congrArg (fun printers => printers.getD place ⟨false, false⟩) alike.printers
    simp only [Handle.dropPanic, flags]

end Fresh

/-- What log calls change in a script: nothing but its log. -/
structure Transparent (patience : Nat) (kind : HandleKind) (backend : Backend) (name : String)
    (steps : List Step) : Prop where
  /-- Without any of its log calls the script differs in lines and records only. -/
  logs : ∀ fewer, Erases Operation.isLog steps fewer →
    PlayedAlike Stage.Alike Trace.silenced Operation.isLog patience kind backend name steps fewer
  /-- Without any of its trace calls a native script does not differ at all. -/
  traces : backend = .native → ∀ fewer, Erases Operation.isTrace steps fewer →
    PlayedAlike Stage.Same Trace.shell Operation.isTrace patience kind backend name steps fewer

theorem logging_transparent (patience : Nat) (kind : HandleKind) (backend : Backend)
    (name : String) (steps : List Step) : Transparent patience kind backend name steps where
  logs := by
    intro fewer erases
    have alike : Stage.Alike ⟨(freshRoot patience kind name).2, []⟩
        ⟨(freshRoot patience kind name).2, []⟩ :=
      Stage.alike_of_silenced rfl fresh_taken fresh_taken
    exact logs_law.playedAlike Stage.Alike.dropPanic trivial alike erases
  traces := by
    rintro rfl fewer erases
    have untraced : Scope.Untraced (.ofRoot (.root .native (freshRoot patience kind name).1)) := by
      intro on
      rw [Scope.context_ofRoot]
      rfl
    apply traces_law.playedAlike _ untraced ⟨rfl, fresh_taken⟩ erases
    rintro a b ⟨rfl, _⟩ h origin unwinding
    rfl

/-- A sub-test that logs and then fails, in front of a look at the flag that its failure sets. -/
def loudScript : List Step :=
  [.leaf "t" (.install "flag"),
    .run "t" "sub" [.leaf "t" (.say .plain "begins"), .leaf "t" (.mustBeTrue false)],
    .leaf "t" (.say (.at .trace) "behind"), .leaf "t" (.tripped "flag")]

def quietScript : List Step :=
  [.leaf "t" (.install "flag"), .run "t" "sub" [.leaf "t" (.mustBeTrue false)],
    .leaf "t" (.tripped "flag")]

/-- Both fail in the same way, and only the loud one leaves lines. -/
theorem loud_transparent :
    Erases Operation.isLog loudScript quietScript ∧
      PlayedAlike Stage.Alike Trace.silenced Operation.isLog 1 .recorder .native "root" loudScript
        quietScript ∧
      (playFresh 1 .recorder .native "root" loudScript).stage.world.journal.fatals.length = 1 ∧
      (playFresh 1 .recorder .native "root" loudScript).stage.world.journal.lines.length = 2 ∧
      (playFresh 1 .recorder .native "root" quietScript).stage.world.journal.lines = [] := by
  have erases : Erases Operation.isLog loudScript quietScript :=
    .leaf _ _ (.run _ _ (.erased _ rfl (.leaf _ _ .nil)) (.erased _ rfl (.leaf _ _ .nil)))
  have transparent := logging_transparent 1 .recorder .native "root" loudScript
  exact ⟨erases, transparent.logs quietScript erases, rfl, rfl, rfl⟩

end NodeHarness
