import Mathlib.Data.Nat.Find
import NodeHarness.BlockWait

/-! Waiting, told without the loop. The first reply gives the start; after it the earliest poll
that fails or is high enough decides, and without one the budget is used up. A wait that succeeds
has seen the blocks it waited for, unless they would lie beyond the greatest height there is. -/
namespace NodeHarness.BlockWait

def target (start interval : Nat) : Nat := min (start + interval) largest64

def budget (policy : PollPolicy) (interval : Nat) : Nat :=
  min (policy.pollsPerBlock * interval) largest64

def Decides (goal : Nat) : Except Failure Nat → Prop
  | .error _ => True
  | .ok height => goal ≤ height

/-- What a deciding reply makes of the wait. -/
def settle : Except Failure Nat → Except Failure Nat
  | .error failure => .error (.statusUnavailable failure)
  | .ok height => .ok height

/-- Poll `k` decides, and none of the polls from `first` up to it does. -/
structure Earliest (replies : Replies) (goal first k : Nat) : Prop where
  reached : first ≤ k
  decides : Decides goal (replies k)
  earliest : ∀ j, first ≤ j → j < k → ¬ Decides goal (replies j)

/-- The outcome of a wait, by which reply decides. Reply 0 is the start, reply `k` is poll `k`. -/
inductive Waits (replies : Replies) (interval : Nat) (policy : PollPolicy) : Outcome → Prop
  | unavailable {failure : Failure} :
      replies 0 = .error failure →
        Waits replies interval policy ⟨.error (.statusUnavailable failure), 1⟩
  | atOnce {start : Nat} :
      replies 0 = .ok start → interval = 0 → Waits replies interval policy ⟨.ok start, 1⟩
  | decided {start k : Nat} :
      replies 0 = .ok start → interval ≠ 0 →
        Earliest replies (target start interval) 1 k → k ≤ budget policy interval →
          Waits replies interval policy ⟨settle (replies k), k + 1⟩
  | timedOut {start last : Nat} :
      replies 0 = .ok start → interval ≠ 0 →
        (∀ k, 1 ≤ k → k ≤ budget policy interval →
          ¬ Decides (target start interval) (replies k)) →
        replies (budget policy interval) = .ok last →
          Waits replies interval policy
            ⟨.error (.waitTimeout interval start last (budget policy interval)),
              budget policy interval + 1⟩

theorem undecided {goal : Nat} {reply : Except Failure Nat} (pending : ¬ Decides goal reply) :
    ∃ height, reply = .ok height ∧ height < goal := by
  cases reply with
  | error failure => exact absurd trivial pending
  | ok height => exact ⟨height, rfl, Nat.lt_of_not_ge pending⟩

@[simp] theorem ofReplies_ask (replies : Replies) (queries : Nat) :
    (ofReplies replies).ask queries = (replies queries, queries + 1) := rfl

@[simp] theorem ofReplies_log (replies : Replies) (level : Level) (message : String)
    (queries : Nat) : (ofReplies replies).log level message queries = queries := rfl

section Polling

variable (replies : Replies) (goal : Nat) (onTimeout : Nat → Failure)

theorem poll_decided {k : Nat} (remaining polls last first : Nat)
    (found : Earliest replies goal first k) (within : k < first + remaining) :
    (ofReplies replies).poll goal onTimeout remaining polls last first =
      (settle (replies k), k + 1) := by
  induction remaining generalizing polls last first with
  | zero =>
    have := found.reached
    omega
  | succ remaining ih =>
    rcases Nat.eq_or_lt_of_le found.reached with rfl | later
    · have decides := found.decides
      cases here : replies first with
      | error failure => simp only [Source.poll, ofReplies_ask, here, settle]
      | ok height =>
        rw [here] at decides
        have enough : goal ≤ height := decides
        simp only [Source.poll, ofReplies_ask, ofReplies_log, here, if_pos enough, settle]
    · obtain ⟨height, here, low⟩ := undecided (found.earliest first (Nat.le_refl _) later)
      have next : Earliest replies goal (first + 1) k :=
        ⟨later, found.decides, fun j above below => found.earliest j (by omega) below⟩
      simp only [Source.poll, ofReplies_ask, ofReplies_log, here, if_neg (Nat.not_le_of_lt low)]
      exact ih (polls + 1) height (first + 1) next (by omega)

/-- Without a deciding reply the budget is used up; `last` is the height of the latest reply
before each poll, so the one that is reported belongs to the last poll. -/
theorem poll_exhausted {final : Nat} (remaining polls last before : Nat)
    (seen : replies before = .ok last)
    (pending : ∀ k, before < k → k ≤ before + remaining → ¬ Decides goal (replies k))
    (ends : replies (before + remaining) = .ok final) :
    (ofReplies replies).poll goal onTimeout remaining polls last (before + 1) =
      (.error (onTimeout final), before + remaining + 1) := by
  induction remaining generalizing polls last before with
  | zero =>
    have same : last = final := Except.ok.inj (seen.symm.trans ends)
    simp only [Source.poll, same, Nat.add_zero]
  | succ remaining ih =>
    obtain ⟨height, here, low⟩ := undecided (pending (before + 1) (by omega) (by omega))
    have shift : before + (remaining + 1) = before + 1 + remaining := by omega
    rw [shift] at ends pending ⊢
    simp only [Source.poll, ofReplies_ask, ofReplies_log, here, if_neg (Nat.not_le_of_lt low)]
    exact ih (polls + 1) height (before + 1) here
      (fun k above below => pending k (by omega) below) ends

end Polling

/-- A wait that is not over at once is its polls. -/
theorem wait_eq_of_poll {replies : Replies} {interval start queries : Nat} {policy : PollPolicy}
    {result : Except Failure Nat} (started : replies 0 = .ok start) (nonzero : interval ≠ 0)
    (polled : (ofReplies replies).poll (target start interval)
      (fun last => .waitTimeout interval start last (budget policy interval))
      (budget policy interval) 0 start 1 = (result, queries)) :
    wait replies interval policy = ⟨result, queries⟩ := by
  simp only [wait, Source.wait, ofReplies_ask, started, if_neg nonzero]
  exact congrArg (fun ending => Outcome.mk ending.1 ending.2) polled

theorem wait_eq_of_waits {replies : Replies} {interval : Nat} {policy : PollPolicy}
    {outcome : Outcome} (waits : Waits replies interval policy outcome) :
    wait replies interval policy = outcome := by
  cases waits with
  | unavailable failed => simp only [wait, Source.wait, ofReplies_ask, failed]
  | atOnce started zero => simp only [wait, Source.wait, ofReplies_ask, started, if_pos zero]
  | decided started nonzero found within =>
    exact wait_eq_of_poll started nonzero
      (poll_decided _ _ _ _ _ _ _ found (Nat.lt_one_add_iff.mpr within))
  | timedOut started nonzero pending ends =>
    rename_i start last
    have exhausted := poll_exhausted replies (target start interval)
      (fun last => .waitTimeout interval start last (budget policy interval))
      (budget policy interval) 0 start 0 started
      (fun k above below => pending k above (by omega)) (by rw [Nat.zero_add]; exact ends)
    simp only [Nat.zero_add] at exhausted
    exact wait_eq_of_poll started nonzero exhausted

theorem waits_wait (replies : Replies) (interval : Nat) (policy : PollPolicy) :
    Waits replies interval policy (wait replies interval policy) := by
  have total : ∃ outcome, Waits replies interval policy outcome := by
    cases started : replies 0 with
    | error failure => exact ⟨_, .unavailable started⟩
    | ok start =>
      by_cases zero : interval = 0
      · exact ⟨_, .atOnce started zero⟩
      · -- either some poll within the budget decides, and then there is a first one, or none does
        by_cases found : ∃ k, 1 ≤ k ∧ k ≤ budget policy interval ∧
            Decides (target start interval) (replies k)
        · classical
          have least := Nat.find_spec found
          refine ⟨_, .decided started zero ⟨least.1, least.2.2, ?_⟩ least.2.1⟩
          intro j above below decides
          exact Nat.find_min found below ⟨above, by omega, decides⟩
        · have pending : ∀ k, 1 ≤ k → k ≤ budget policy interval →
              ¬ Decides (target start interval) (replies k) :=
            fun k above below decides => found ⟨k, above, below, decides⟩
          have ends : ∃ last, replies (budget policy interval) = .ok last := by
            rcases Nat.eq_zero_or_pos (budget policy interval) with empty | positive
            · exact ⟨start, empty ▸ started⟩
            · obtain ⟨last, here, _⟩ := undecided (pending _ positive (Nat.le_refl _))
              exact ⟨last, here⟩
          obtain ⟨last, ends⟩ := ends
          exact ⟨_, .timedOut started zero pending ends⟩
  obtain ⟨outcome, waits⟩ := total
  exact wait_eq_of_waits waits ▸ waits

theorem waits_congr {replies others : Replies} {interval : Nat} {policy : PollPolicy}
    {outcome : Outcome} (waits : Waits replies interval policy outcome)
    (agree : ∀ i < outcome.queries, others i = replies i) :
    Waits others interval policy outcome := by
  cases waits with
  | unavailable failed => exact .unavailable ((agree 0 (by simp)).trans failed)
  | atOnce started zero => exact .atOnce ((agree 0 (by simp)).trans started) zero
  | @decided start k started nonzero found within =>
    have same : others k = replies k := agree k (Nat.lt_succ_self k)
    rw [← same]
    refine .decided ((agree 0 (Nat.succ_pos k)).trans started) nonzero
      ⟨found.reached, same ▸ found.decides, ?_⟩ within
    intro j above below
    rw [agree j (Nat.lt_succ_of_lt below)]
    exact found.earliest j above below
  | timedOut started nonzero pending ends =>
    refine .timedOut ((agree 0 (Nat.succ_pos _)).trans started) nonzero ?_
      ((agree _ (Nat.lt_succ_self _)).trans ends)
    intro k above below
    rw [agree k (Nat.lt_succ_of_le below)]
    exact pending k above below

/-- The result and the number of queries of every wait. The replies that it counts are the only
ones that matter. -/
theorem wait_eq_iff_waits (replies : Replies) (interval : Nat) (policy : PollPolicy) :
    (∀ outcome, wait replies interval policy = outcome ↔ Waits replies interval policy outcome) ∧
      ∀ others : Replies,
        (∀ i < (wait replies interval policy).queries, others i = replies i) →
          wait others interval policy = wait replies interval policy := by
  have waits := waits_wait replies interval policy
  refine ⟨fun outcome => ⟨fun same => same ▸ waits, wait_eq_of_waits⟩, ?_⟩
  intro others agree
  exact wait_eq_of_waits (waits_congr waits agree)

/-- Sources that give the same heights from states that are alike; what is logged keeps the states
alike, whatever each of them makes of it. -/
structure Source.Alike {σ τ : Type} (one : Source σ) (other : Source τ) (alike : σ → τ → Prop) :
    Prop where
  asked : ∀ s t, alike s t →
    (one.ask s).1 = (other.ask t).1 ∧ alike (one.ask s).2 (other.ask t).2
  logged : ∀ level message s t, alike s t →
    alike (one.log level message s) (other.log level message t)

section Alike

variable {σ τ : Type} {one : Source σ} {other : Source τ} {alike : σ → τ → Prop}
  (sources : one.Alike other alike)
include sources

/-- Polls of sources that go alike end alike, after equally many queries. -/
theorem Source.Alike.poll (goal : Nat) (onTimeout : Nat → Failure) (remaining polls last : Nat)
    {s : σ} {t : τ} (start : alike s t) :
    (one.poll goal onTimeout remaining polls last s).1 =
        (other.poll goal onTimeout remaining polls last t).1 ∧
      alike (one.poll goal onTimeout remaining polls last s).2
        (other.poll goal onTimeout remaining polls last t).2 := by
  induction remaining generalizing polls last s t with
  | zero => exact ⟨rfl, start⟩
  | succ remaining ih =>
    obtain ⟨answer, next⟩ := sources.asked s t start
    simp only [Source.poll]
    generalize one.ask s = left at answer next
    generalize other.ask t = right at answer next
    obtain ⟨result, s⟩ := left
    obtain ⟨_, t⟩ := right
    cases answer
    cases result with
    | error failure => exact ⟨rfl, next⟩
    | ok height =>
      dsimp only
      split
      · exact ⟨rfl, sources.logged _ _ _ _ next⟩
      · exact ih (polls + 1) height (sources.logged _ _ _ _ next)

theorem Source.Alike.wait (interval : Nat) (policy : PollPolicy) {s : σ} {t : τ}
    (start : alike s t) :
    (one.wait interval policy s).1 = (other.wait interval policy t).1 ∧
      alike (one.wait interval policy s).2 (other.wait interval policy t).2 := by
  obtain ⟨answer, next⟩ := sources.asked s t start
  simp only [Source.wait]
  generalize one.ask s = left at answer next
  generalize other.ask t = right at answer next
  obtain ⟨result, s⟩ := left
  obtain ⟨_, t⟩ := right
  cases answer
  cases result with
  | error failure => exact ⟨rfl, next⟩
  | ok height =>
    dsimp only
    split
    · exact ⟨rfl, next⟩
    · exact sources.poll _ _ _ _ _ next

end Alike

/-- Every height is a number of 64 bits. -/
def Sized (replies : Replies) : Prop := ∀ i height, replies i = .ok height → height ≤ largest64

/-- What a wait tells of the blocks that came since its first query. -/
structure Advances (replies : Replies) (interval : Nat) (result : Except Failure Nat) : Prop where
  /-- A success is a height so far above the start, or the greatest one. -/
  success : ∀ height, result = .ok height →
    ∃ start, replies 0 = .ok start ∧ (start + interval ≤ height ∨ height = largest64)
  /-- The blocks did come just when the height that is waited for is one of 64 bits. -/
  came : ∀ start height, replies 0 = .ok start → result = .ok height →
    (start + interval ≤ height ↔ start + interval ≤ largest64)
  /-- Behind a timeout the blocks had not come. -/
  timeout : ∀ asked start last polls, result = .error (.waitTimeout asked start last polls) →
    asked = interval ∧ replies 0 = .ok start ∧ last < start + interval

section Success

variable {replies : Replies} {interval start height : Nat}

theorem Advances.of_ok (started : replies 0 = .ok start)
    (enough : target start interval ≤ height) (sized : height ≤ largest64) :
    Advances replies interval (.ok height) := by
  have reached : start + interval ≤ height ∨ height = largest64 := by
    rw [target] at enough
    omega
  constructor
  · intro found same
    cases same
    exact ⟨start, started, reached⟩
  · intro first found same result
    cases result
    cases started.symm.trans same
    rw [target] at enough
    omega
  · intro asked first last polls impossible
    cases impossible

theorem Advances.of_timeout {last polls : Nat} (started : replies 0 = .ok start)
    (low : last < start + interval) :
    Advances replies interval (.error (.waitTimeout interval start last polls)) := by
  constructor
  · intro found impossible
    cases impossible
  · intro first found _ impossible
    cases impossible
  · intro asked first found count same
    cases same
    exact ⟨rfl, started, low⟩

theorem Advances.of_unavailable (failure : Failure) :
    Advances replies interval (.error (.statusUnavailable failure)) := by
  constructor
  · intro found impossible
    cases impossible
  · intro first found _ impossible
    cases impossible
  · intro asked first last polls impossible
    cases impossible

end Success

/-- What a wait tells of the blocks that came, for heights that rise and fall as they like. -/
theorem wait_advances {replies : Replies} (sized : Sized replies) (interval : Nat)
    (policy : PollPolicy) : Advances replies interval (wait replies interval policy).result := by
  have waits := waits_wait replies interval policy
  generalize wait replies interval policy = outcome at waits
  cases waits with
  | unavailable failed => exact .of_unavailable _
  | @atOnce start started zero =>
    refine .of_ok started ?_ (sized 0 start started)
    rw [target, zero]
    exact Nat.min_le_left _ _
  | @decided start k started nonzero found within =>
    have decides := found.decides
    cases seen : replies k with
    | error failure => exact .of_unavailable _
    | ok height =>
      rw [seen] at decides
      exact .of_ok started decides (sized k height seen)
  | @timedOut start last started nonzero pending ends =>
    refine .of_timeout started ?_
    rcases Nat.eq_zero_or_pos (budget policy interval) with empty | positive
    · -- without a poll the last height is the start
      rw [empty, started] at ends
      cases ends
      omega
    · obtain ⟨height, seen, low⟩ := undecided (pending _ positive (Nat.le_refl _))
      cases seen.symm.trans ends
      rw [target] at low
      omega

/-- A node that stands at the greatest height. -/
def atTheTop : Replies := fun _ => .ok largest64

/-- There a wait for one block succeeds, and no block came. -/
theorem atTheTop_advances :
    Sized atTheTop ∧ ∃ start height, atTheTop 0 = .ok start ∧
      (wait atTheTop 1 ⟨0, 1⟩).result = .ok height ∧ height < start + 1 := by
  have sized : Sized atTheTop := by
    intro i height same
    cases same
    exact Nat.le_refl _
  have result : (wait atTheTop 1 ⟨0, 1⟩).result = .ok largest64 := rfl
  refine ⟨sized, largest64, largest64, rfl, result, ?_⟩
  have came := (wait_advances sized 1 ⟨0, 1⟩).came largest64 largest64 rfl result
  exact Nat.lt_of_not_ge fun above => Nat.not_succ_le_self _ (came.mp above)

end NodeHarness.BlockWait
