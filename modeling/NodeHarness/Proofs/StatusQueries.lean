import NodeHarness.Proofs.Invocation
import NodeHarness.Proofs.StatusFormat
import NodeHarness.Proofs.Waiting

/-! Waiting through a client. Every query of a wait is one status command, and the wait is the one
over the heights that these commands answer with. -/
namespace NodeHarness

namespace Client

section Queries

variable (c : Client) (outside : Outside)

def statusWords (draw : Nat) : List String :=
  match Command.endpoint? c.options.nodes draw with
  | some node => ["status", "--node", node]
  | none => ["status"]

/-- The status command that is made in some place. -/
def statusCall (place : Nat) : Call := ⟨c.daemon, c.statusWords (outside.draw place), ""⟩

/-- What the reply to a status command answers. -/
def heightOf (words : List String) : Reply → Except Failure Nat
  | .error cause => .error (.spawn c.daemon cause)
  | .ok finished =>
    if finished.success then
      match NodeStatus.ofOutput finished.output with
      | .ok status => .ok status.height
      | .error failure => .error failure
    else .error (.command finished.exitCode finished.output
      (Command.record c.daemon words finished.output))

def statusReply (place : Nat) : Reply := outside.run place (c.statusCall outside place)

/-- The answers to status commands, from some place on. -/
def heights (first : Nat) : BlockWait.Replies := fun i =>
  c.heightOf (c.statusWords (outside.draw (first + i))) (c.statusReply outside (first + i))

/-- The status commands from some place on, in order. -/
def statusCalls (first count : Nat) : List Call :=
  (List.range count).map fun i => c.statusCall outside (first + i)

/-- A status command that names one of the endpoints, or none when there are none. -/
structure IsStatusCall (call : Call) : Prop where
  program : call.program = c.daemon
  input : call.input = ""
  words : c.options.nodes = [] ∧ call.arguments = ["status"] ∨
    ∃ node ∈ c.options.nodes, call.arguments = ["status", "--node", node]

theorem endpoint?_cases (nodes : List String) (draw : Nat) :
    nodes = [] ∧ Command.endpoint? nodes draw = none ∨
      ∃ node ∈ nodes, Command.endpoint? nodes draw = some node := by
  cases nodes with
  | nil => exact .inl ⟨rfl, rfl⟩
  | cons first rest =>
    have inside : draw % (first :: rest).length < (first :: rest).length :=
      Nat.mod_lt _ (Nat.succ_pos _)
    exact .inr ⟨_, List.getElem_mem inside, List.getElem?_eq_getElem inside⟩

theorem statusCall_isStatusCall (place : Nat) : c.IsStatusCall (c.statusCall outside place) := by
  refine ⟨rfl, rfl, ?_⟩
  simp only [statusCall, statusWords]
  rcases endpoint?_cases c.options.nodes (outside.draw place) with
    ⟨empty, none⟩ | ⟨node, member, some⟩
  · exact .inl ⟨empty, by rw [none]⟩
  · exact .inr ⟨node, member, by rw [some]⟩

theorem complete_status (s : Session) :
    c.complete outside ["status"] s = c.statusWords (outside.draw s.calls.length) := by
  have asks : Command.asksNode ["status"] = true := by decide
  have closed (rest : List String) : Command.opensKeyring ("status" :: rest) = false := by
    simp [Command.opensKeyring]
  simp only [complete, Command.complete, Command.withNode, asks, if_true, statusWords]
  cases Command.endpoint? c.options.nodes (outside.draw s.calls.length) <;>
    simp [Command.withKeyring, closed, Command.nodeFlag]

theorem height_result (s : Session) :
    (c.height outside s).1 = c.heights outside s.calls.length 0 := by
  have words := c.complete_status outside s
  have reply : c.replyTo outside ["status"] "" s = c.statusReply outside s.calls.length := by
    rw [replyTo, callOf, words]
    rfl
  have given := c.invoke_result outside ["status"] "" s
  rw [words, reply] at given
  simp only [height, status, given, heights, Nat.add_zero]
  cases c.statusReply outside s.calls.length with
  | error cause => rfl
  | ok finished =>
    cases ended : finished.success with
    | false => simp [judge, heightOf, ended, Except.map]
    | true =>
      simp only [judge, heightOf, ended, if_true]
      cases NodeStatus.ofOutput finished.output <;> rfl

theorem height_calls (s : Session) :
    (c.height outside s).2.calls = c.statusCall outside s.calls.length :: s.calls := by
  have made : (c.height outside s).2.calls = c.callOf outside ["status"] "" s :: s.calls :=
    c.invoke_calls outside ["status"] "" s
  rw [made, callOf, complete_status, statusCall]

end Queries

section Waiting

variable {c : Client} {outside : Outside} {first : Session}

/-- The session after some status commands. -/
def Asked (c : Client) (outside : Outside) (first : Session) (count : Nat) (s : Session) : Prop :=
  s.calls = (c.statusCalls outside first.calls.length count).reverse ++ first.calls

theorem Asked.start : Asked c outside first 0 first := rfl

theorem Asked.logged {count : Nat} {s : Session} (asked : Asked c outside first count s)
    (level : Level) (target message : String) :
    Asked c outside first count (s.logged level target message) := asked

theorem Asked.length {count : Nat} {s : Session} (asked : Asked c outside first count s) :
    s.calls.length = first.calls.length + count := by
  rw [asked]
  simp [statusCalls, Nat.add_comm]

/-- One more query: the next status command is made, and its answer is given. -/
theorem Asked.next {count : Nat} {s : Session} (asked : Asked c outside first count s) :
    (c.height outside s).1 = c.heights outside first.calls.length count ∧
      Asked c outside first (count + 1) (c.height outside s).2 := by
  constructor
  · rw [height_result, asked.length]
    simp only [heights, Nat.add_zero]
  · rw [Asked, height_calls, asked.length, asked]
    simp [statusCalls, List.range_succ]

/-- A client goes like the answers to its status commands, one command for each of them. -/
theorem heightSource_alike (c : Client) (outside : Outside) (first : Session) :
    (c.heightSource outside).Alike (BlockWait.ofReplies (c.heights outside first.calls.length))
      fun s count => Asked c outside first count s where
  asked _ _ asked := asked.next
  logged level message _ _ asked := asked.logged level waitTarget message

theorem waitBlocks_refines (c : Client) (outside : Outside) (interval : Nat) (s : Session) :
    (c.waitBlocks outside interval s).1 =
      (BlockWait.wait (c.heights outside s.calls.length) interval c.policy).result ∧
    Asked c outside s (BlockWait.wait (c.heights outside s.calls.length) interval c.policy).queries
      (c.waitBlocks outside interval s).2 :=
  (c.heightSource_alike outside s).wait interval c.policy Asked.start

end Waiting

end Client

/-- A wait fails by its last query, or because its polls are used up. -/
theorem BlockWait.Waits.failed {replies : BlockWait.Replies} {interval : Nat} {policy : PollPolicy}
    {outcome : BlockWait.Outcome} (waits : BlockWait.Waits replies interval policy outcome)
    {failure : Failure} (fails : outcome.result = .error failure) :
    (∃ start last,
      failure = .waitTimeout interval start last (BlockWait.budget policy interval)) ∨
      ∃ inner, failure = .statusUnavailable inner ∧
        replies (outcome.queries - 1) = .error inner := by
  cases waits with
  | unavailable failed =>
    cases fails
    exact .inr ⟨_, rfl, failed⟩
  | atOnce => cases fails
  | @decided start k =>
    simp only [Nat.add_sub_cancel] at fails ⊢
    cases decider : replies k with
    | error inner =>
      rw [decider] at fails
      cases fails
      exact .inr ⟨inner, rfl, rfl⟩
    | ok height =>
      rw [decider] at fails
      cases fails
  | timedOut =>
    cases fails
    exact .inl ⟨_, _, rfl⟩

namespace Client

/-- The failure of a wait that one query is to blame for: it tells the record of that command if
it failed, and its output if that could not be read. -/
structure Blames (c : Client) (words : List String) (reply : Reply) (failure : Failure) : Prop where
  around : ∃ inner, failure = .statusUnavailable inner ∧ c.heightOf words reply = .error inner
  log : ∀ log, failure.commandLog = some log ↔ ∃ finished, reply = .ok finished ∧
    finished.success = false ∧ Command.record c.daemon words finished.output = log
  payload : ∀ text, failure.payload = some text ↔ ∃ finished, reply = .ok finished ∧
    finished.success = true ∧ (∀ status, NodeStatus.ofOutput finished.output ≠ .ok status) ∧
      Text.Utf8.lossy finished.output = text

theorem blames_of_error {c : Client} {words : List String} {reply : Reply} {inner : Failure}
    (fails : c.heightOf words reply = .error inner) :
    c.Blames words reply (.statusUnavailable inner) := by
  refine ⟨⟨inner, rfl, fails⟩, ?_, ?_⟩
  all_goals
    intro shown
    cases reply with
    | error cause =>
      cases fails
      simp [Failure.commandLog, Failure.payload]
    | ok finished =>
      simp only [heightOf] at fails
      split at fails
      · rename_i success
        split at fails
        · cases fails
        · rename_i refused
          cases fails
          obtain ⟨fault, rfl⟩ := decodeOutput_error refused
          simp [Failure.commandLog, Failure.payload, success, refused]
      · rename_i failed
        cases fails
        simp [Failure.commandLog, Failure.payload, failed]

/-- A client's wait against the wait over the answers to its status commands. -/
structure WaitsByCommands (c : Client) (outside : Outside) (interval : Nat) (s : Session)
    (outcome : BlockWait.Outcome) : Prop where
  result : (c.waitBlocks outside interval s).1 = outcome.result
  /-- One command for each query, in order, and none behind the last query. -/
  calls : (c.waitBlocks outside interval s).2.calls =
    (c.statusCalls outside s.calls.length outcome.queries).reverse ++ s.calls
  commands : ∀ call ∈ c.statusCalls outside s.calls.length outcome.queries, c.IsStatusCall call
  /-- A failure is the timeout, or the last query is to blame for it. -/
  failed : ∀ failure, (c.waitBlocks outside interval s).1 = .error failure →
    (∃ start last, failure =
      .waitTimeout interval start last (BlockWait.budget c.policy interval)) ∨
    c.Blames (c.statusWords (outside.draw (s.calls.length + (outcome.queries - 1))))
      (c.statusReply outside (s.calls.length + (outcome.queries - 1))) failure

theorem waitBlocks_byCommands (c : Client) (outside : Outside) (interval : Nat) (s : Session) :
    c.WaitsByCommands outside interval s
      (BlockWait.wait (c.heights outside s.calls.length) interval c.policy) := by
  obtain ⟨result, asked⟩ := c.waitBlocks_refines outside interval s
  refine ⟨result, asked, ?_, ?_⟩
  · intro call member
    obtain ⟨i, _, rfl⟩ := List.mem_map.mp member
    exact c.statusCall_isStatusCall outside _
  · intro failure fails
    rw [result] at fails
    rcases (BlockWait.waits_wait _ _ _).failed fails with timeout | ⟨inner, rfl, last⟩
    · exact .inl timeout
    · exact .inr (blames_of_error last)

end Client
end NodeHarness
