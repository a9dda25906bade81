import NodeHarness.Telemetry

/-! Log output is installed once. Between calls a process is in one of two kinds of state: nothing
is installed, or all of it is, with one filter. The first call that asks for a filter moves it from
the one to the other, and no call moves it back or on. What a text means as a filter is left
open. -/
namespace NodeHarness.Telemetry

/-- A call, and the setting of the environment when it is made. -/
structure Request where
  setting : Option String
  call : TelemetryCall

/-- The filter that a call asks for; there is none when its text cannot be read. -/
def Request.filter? (read : String → Option Filter) (r : Request) : Option Filter :=
  match r.call with
  | .init => some (environmentFilter read r.setting)
  | .initFilter text => read text
  | .tryInit => some (environmentFilter read r.setting)

/-- Makes calls one after the other, and collects their answers. -/
def run (read : String → Option Filter) (t : Telemetry) : List Request → List Bool × Telemetry
  | [] => ([], t)
  | r :: rest =>
    let (granted, t) := t.performWith read r.setting r.call
    let (answers, t) := run read t rest
    (granted :: answers, t)

/-- The state with a filter in force, or with none. -/
def inForce (f : Option Filter) : Telemetry := ⟨f.isSome, f, f.isSome⟩

section Calls

variable {read : String → Option Filter} {before behind requests : List Request} {r here : Request}

theorem install_inForce (f : Option Filter) (wanted : Filter) :
    (inForce f).install wanted = (f.isNone, inForce (f.or (some wanted))) := by
  cases f <;> rfl

/-- A call is granted if no filter is in force and it asks for one, which then is. -/
theorem performWith_inForce (f : Option Filter) (r : Request) :
    (inForce f).performWith read r.setting r.call =
      (f.isNone && (r.filter? read).isSome, inForce (f.or (r.filter? read))) := by
  obtain ⟨setting, call⟩ := r
  cases call with
  | init => simp [performWith, Request.filter?, install_inForce]
  | initFilter text =>
    cases found : read text <;> simp [performWith, Request.filter?, found, install_inForce]
  | tryInit => cases f <;> rfl

theorem run_cons (f : Option Filter) (r : Request) (rest : List Request) :
    run read (inForce f) (r :: rest) =
      ((f.isNone && (r.filter? read).isSome) ::
          (run read (inForce (f.or (r.filter? read))) rest).1,
        (run read (inForce (f.or (r.filter? read))) rest).2) := by
  rw [run, performWith_inForce]

/-- With a filter in force every call is refused. -/
theorem run_installed (f : Filter) (requests : List Request) :
    run read (inForce (some f)) requests =
      (List.replicate requests.length false, inForce (some f)) := by
  induction requests with
  | nil => rfl
  | cons r rest ih =>
    rw [run_cons, Option.some_or, ih]
    rfl

/-- Calls that ask for no filter are refused and change nothing. -/
theorem run_unreadable (unreadable : ∀ r ∈ requests, r.filter? read = none) :
    run read (inForce none) requests =
      (List.replicate requests.length false, inForce none) := by
  induction requests with
  | nil => rfl
  | cons r rest ih =>
    have next := ih fun other member => unreadable other (List.mem_cons_of_mem _ member)
    rw [run_cons, unreadable r List.mem_cons_self, Option.or_none, next]
    rfl

theorem run_append (t : Telemetry) (before behind : List Request) :
    run read t (before ++ behind) =
      ((run read t before).1 ++ (run read (run read t before).2 behind).1,
        (run read (run read t before).2 behind).2) := by
  induction before generalizing t with
  | nil => rfl
  | cons r rest ih => simp only [List.cons_append, run, ih]

theorem run_first {f : Filter} (unreadable : ∀ r ∈ before, r.filter? read = none)
    (wanted : here.filter? read = some f) :
    run read (inForce none) (before ++ here :: behind) =
      (List.replicate before.length false ++ true :: List.replicate behind.length false,
        inForce (some f)) := by
  rw [run_append, run_unreadable unreadable, run_cons, wanted, Option.none_or, run_installed]
  rfl

/-- The filter in force is the first one that was asked for. -/
theorem run_state (f : Option Filter) (requests : List Request) :
    (run read (inForce f) requests).2 =
      inForce (f.or (requests.findSome? (Request.filter? read))) := by
  induction requests generalizing f with
  | nil => simp [run]
  | cons r rest ih =>
    rw [run_cons, ih, List.findSome?_cons]
    cases f with
    | some f => rfl
    | none => cases r.filter? read <;> rfl

end Calls

/-- A call that is made in some state, behind others, and its answer. -/
structure Point (read : String → Option Filter) (before : List Request) (r : Request)
    (t : Telemetry) (answer : Bool × Telemetry) : Prop where
  /-- Granted is the first call that asks for a filter, and no other. -/
  first : answer.1 = true ↔
    (∃ f, r.filter? read = some f) ∧ ∀ earlier ∈ before, earlier.filter? read = none
  installed : answer.1 = true → ∃ f, r.filter? read = some f ∧ answer.2 = ⟨true, some f, true⟩
  kept : answer.1 = false → answer.2 = t
  /-- The mark is set exactly while a filter is in force, and so is all the rest. -/
  marked : t.installed = t.active.isSome ∧ t.connected = t.active.isSome
  own : answer.1 = true ↔ t.installed = false ∧ answer.2.installed = true

theorem point_of_inForce (read : String → Option Filter) (before : List Request) (r : Request) :
    Point read before r (inForce (before.findSome? (Request.filter? read)))
      ((inForce (before.findSome? (Request.filter? read))).performWith read r.setting r.call) := by
  rw [performWith_inForce]
  have unasked : before.findSome? (Request.filter? read) = none ↔
      ∀ earlier ∈ before, earlier.filter? read = none := List.findSome?_eq_none_iff
  generalize before.findSome? (Request.filter? read) = f at unasked
  cases f with
  | none =>
    have nothing : ∀ earlier ∈ before, earlier.filter? read = none := unasked.mp rfl
    cases wanted : r.filter? read with
    | none => constructor <;> simp [wanted, inForce]
    | some f =>
      constructor
      case first => exact ⟨fun _ => ⟨⟨f, wanted⟩, nothing⟩, fun _ => rfl⟩
      all_goals simp [wanted, inForce]
  | some f =>
    -- some filter was asked for before, so this call is not the first
    have asked : ¬ ∀ earlier ∈ before, earlier.filter? read = none :=
      fun nothing => by cases unasked.mpr nothing
    constructor
    case first =>
      exact ⟨fun refused => absurd refused Bool.false_ne_true, fun first => absurd first.2 asked⟩
    all_goals simp [inForce]

/-- Calls of every order and number, whatever reads the filters. -/
structure InstallsOnce (read : String → Option Filter) : Prop where
  /-- One answer of all is yes: the one to the first call that asks for a filter. -/
  granted : ∀ before here behind f, (∀ r ∈ before, r.filter? read = none) →
    here.filter? read = some f →
    run read start (before ++ here :: behind) =
      (List.replicate before.length false ++ true :: List.replicate behind.length false,
        ⟨true, some f, true⟩)
  refused : ∀ requests, (∀ r ∈ requests, r.filter? read = none) →
    run read start requests = (List.replicate requests.length false, start)
  everywhere : ∀ before r, Point read before r (run read start before).2
    ((run read start before).2.performWith read r.setting r.call)

/-- Log output is installed once, also where `perform` reads filters as lists of directives. -/
theorem installs_once (read : String → Option Filter) : InstallsOnce read where
  granted _ _ _ _ unreadable wanted := run_first unreadable wanted
  refused _ unreadable := run_unreadable unreadable
  everywhere before r := by
    have state : (run read start before).2 =
        inForce (before.findSome? (Request.filter? read)) := run_state none before
    rw [state]
    exact point_of_inForce read before r

/-- A text that is no filter leaves the installation to the next call. -/
example : (run Filter.ofText? start
    [⟨none, .initFilter "a=verbose"⟩, ⟨some "b=loud", .tryInit⟩, ⟨none, .initFilter "info"⟩]).1 =
      [false, true, false] := by
  decide

end NodeHarness.Telemetry
