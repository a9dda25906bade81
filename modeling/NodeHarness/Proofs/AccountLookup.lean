import NodeHarness.Lookup
import NodeHarness.Proofs.Invocation
import NodeHarness.Proofs.Padding

/-! Looking an account up by name. Two commands are run, the second one for the address that the
first one gave, and the test is stopped at the first of them that fails, or by an account that
cannot be read. Every stop tells what was asked for. -/
namespace NodeHarness

open World

namespace World

/-- The failure event comes back from its listeners. -/
def Hears (w : World) : Prop := ∃ after, w.dispatch failEvent = .ok after

theorem NotedOnly.hears {before after : World} (noted : NotedOnly before after)
    (hears : before.Hears) : after.Hears := by
  obtain ⟨heard, ran⟩ := hears
  unfold Hears
  unfold dispatch at ran ⊢
  rw [noted.signals, noted.patience]
  split
  · rename_i endless
    rw [endless] at ran
    cases ran
  · exact ⟨_, rfl⟩

theorem dispatch_journal {w after : World} {event : String} (ran : w.dispatch event = .ok after) :
    after.journal = w.journal := by
  unfold dispatch at ran
  split at ran
  · cases ran
  · cases ran
    rfl

end World

namespace Context

/-- What a failure stops a test with: a report of it that ends with the fields. -/
def stopMessage (t : Context) (test : String) (extra : List (String × Json)) (failure : Failure) :
    String :=
  Handle.assertionReport test ("Received unexpected error:\n\t\t" ++ failure.message)
    (t.withFields (Fields.ofList extra)).render

/-- A failure stopped the test. The failure event was dispatched once, and no other event; the
journal has one more fatal stop, and no line more. -/
structure Stops (t : Context) (extra : List (String × Json)) (failure : Failure) (before : World)
    (halt : Halt) (after : World) (stop : FatalStop) : Prop where
  raised : halt = .fatal stop.test stop.message
  test : t.handle = .recorder stop.test
  message : stop.message = t.stopMessage stop.test extra failure
  ends : (t.fields.merge (Fields.ofList extra)).render.toList <:+ stop.message.toList
  journal : after.journal = { before.journal with fatals := before.journal.fatals ++ [stop] }
  events : ∀ event, after.dispatchCount event =
    before.dispatchCount event + if event = failEvent then 1 else 0

theorem assertionReport_ends (test failure detail : String) :
    detail.toList <:+ (Handle.assertionReport test failure detail).toList := by
  unfold Handle.assertionReport
  split
  · rename_i empty
    rw [String.isEmpty_iff.mp empty]
    exact List.nil_suffix
  · simp only [String.toList_append, ← List.append_assoc]
    exact List.suffix_append _ _

theorem Stops.of_noted {t : Context} {extra : List (String × Json)} {failure : Failure}
    {before middle after : World} {halt : Halt} {stop : FatalStop}
    (noted : NotedOnly before middle) (stops : t.Stops extra failure middle halt after stop) :
    t.Stops extra failure before halt after stop where
  raised := stops.raised
  test := stops.test
  message := stops.message
  ends := stops.ends
  journal := by rw [stops.journal, noted.journal]
  events event := by rw [stops.events, noted.quiet.dispatchCount_eq]

theorem mustBeOk_stops {α : Type} {t : Context} (recorded : t.Recorded) {w : World}
    (hears : w.Hears) (extra : List (String × Json)) (failure : Failure) :
    ∃ halt after stop,
      (t.withFields (Fields.ofList extra)).mustBeOk
        (.error failure.message : Except String α) w = (.error halt, after) ∧
      t.Stops extra failure w halt after stop := by
  obtain ⟨native, test, recorder⟩ := recorded
  obtain ⟨heard, ran⟩ := hears
  let message := t.stopMessage test extra failure
  have checked : (t.withFields (Fields.ofList extra)).mustBeOk
      (.error failure.message : Except String α) w =
        (.error (.fatal test message), ((Handle.recorder test).fatal message heard).2) := by
    have backend : (t.withFields (Fields.ofList extra)).backend = .native := native
    have handle : (t.withFields (Fields.ofList extra)).handle = .recorder test := recorder
    simp only [mustBeOk, validationFailure, violate, ran, backend, handle]
    rfl
  refine ⟨_, _, ⟨test, message⟩, checked, rfl, recorder, rfl, assertionReport_ends _ _ _, ?_, ?_⟩
  · rw [← dispatch_journal ran]
    rfl
  · intro event
    have stopped : Quiet heard ((Handle.recorder test).fatal message heard).2 := .cons rfl rfl
    obtain ⟨middle, begun, quiet⟩ := dispatch_announces ran
    rw [(quiet.trans stopped).dispatchCount_eq, dispatchCount, begun, List.countP_cons,
      dispatchCount]
    by_cases same : event = failEvent
    · simp [Happening.dispatches, same]
    · simp [Happening.dispatches, same, Ne.symm same]

end Context

namespace Lookup

open Client Context

def keyWords (name : String) : List String :=
  ["keys", "show", name, "-a", "--keyring-backend", "test"]

def accountWords (nodes : List String) (draw : Nat) (address : String) : List String :=
  ["query", "account", address] ++
    match Command.endpoint? nodes draw with
    | some node => ["--node", node]
    | none => []

section Calls

variable (c : Client) (outside : Outside) (name : String) (s : Session)

/-- The first call asks for the address of a key. -/
def keyCall : Call := ⟨c.daemon, keyWords name, ""⟩

def keyReply : Reply := outside.run s.calls.length (keyCall c name)

/-- The second call asks a node for the account at an address. -/
def accountCall (address : String) : Call :=
  ⟨c.daemon, accountWords c.options.nodes (outside.draw (s.calls.length + 1)) address, ""⟩

def accountReply (address : String) : Reply :=
  outside.run (s.calls.length + 1) (accountCall c outside s address)

/-- The output with line feeds and spaces taken off both ends, and nothing else. -/
def IsAddress (output : List UInt8) (address : String) : Prop :=
  Text.Padded (fun ch => ch = '\n' || ch = ' ') (Text.Utf8.lossyChars output) address.toList

/-- How a lookup ends. -/
inductive LooksUp (t : Context) : Except Halt Account → Session → Prop
  | noKey {failure : Failure} {log : String} {halt : Halt} {world : World} {stop : FatalStop} :
      c.Refuses (keyWords name) (keyReply c outside name s) failure log →
      t.Stops [("account", .text name), ("log", .text log)] failure s.world halt world stop →
        LooksUp t (.error halt) ⟨keyCall c name :: s.calls, world⟩
  | noAccount {key : Finished} {address : String} {failure : Failure} {log : String} {halt : Halt}
      {world : World} {stop : FatalStop} :
      keyReply c outside name s = .ok key → key.success = true → IsAddress key.output address →
      c.Refuses (accountWords c.options.nodes (outside.draw (s.calls.length + 1)) address)
        (accountReply c outside s address) failure log →
      t.Stops [("address", .text address), ("log", .text log)] failure s.world halt world stop →
        LooksUp t (.error halt)
          ⟨accountCall c outside s address :: keyCall c name :: s.calls, world⟩
  | unreadable {key found : Finished} {address : String} {failure : Failure} {halt : Halt}
      {world : World} {stop : FatalStop} :
      keyReply c outside name s = .ok key → key.success = true → IsAddress key.output address →
      accountReply c outside s address = .ok found → found.success = true →
      Account.ofOutput found.output = .error failure →
      t.Stops [("acc_bytes", .text (Text.Utf8.lossy found.output))] failure s.world halt world
        stop →
        LooksUp t (.error halt)
          ⟨accountCall c outside s address :: keyCall c name :: s.calls, world⟩
  | found {key found : Finished} {address : String} {account : Account} {world : World} :
      keyReply c outside name s = .ok key → key.success = true → IsAddress key.output address →
      accountReply c outside s address = .ok found → found.success = true →
      Account.ofOutput found.output = .ok account →
      NotedOnly s.world world →
        LooksUp t (.ok account)
          ⟨accountCall c outside s address :: keyCall c name :: s.calls, world⟩

theorem callOf_key : c.callOf outside ["keys", "show", name, "-a"] "" s = keyCall c name := by
  have nodeless : Command.asksNode ["keys", "show", name, "-a"] = false := by
    simp [Command.asksNode]
  have opens : Command.opensKeyring ["keys", "show", name, "-a"] = true := by
    simp [Command.opensKeyring]
  simp [callOf, keyCall, keyWords, complete, Command.complete, Command.withNode, nodeless,
    Command.withKeyring, opens, Command.keyringFlag, Command.keyringKind]

theorem callOf_account (address : String) {after : Session}
    (calls : after.calls.length = s.calls.length + 1) :
    c.callOf outside ["query", "account", address] "" after = accountCall c outside s address := by
  have asks : Command.asksNode ["query", "account", address] = true := by simp [Command.asksNode]
  have closed (rest : List String) : Command.opensKeyring ("query" :: rest) = false := by
    simp [Command.opensKeyring]
  simp only [callOf, accountCall, accountWords, complete, Command.complete, Command.withNode, asks,
    if_true, calls]
  cases Command.endpoint? c.options.nodes (outside.draw (s.calls.length + 1)) <;>
    simp [Command.withKeyring, closed, Command.nodeFlag]

end Calls

section Steps

variable {c : Client} {outside : Outside} {words : List String} {s : Session} {t : Context}

theorem require_error {α : Type} (recorded : t.Recorded) (hears : s.world.Hears)
    (extra : List (String × Json)) (failure : Failure) :
    ∃ halt world stop,
      require (t.withFields (Fields.ofList extra)) (.error failure : Except Failure α) s =
        (.error halt, ⟨s.calls, world⟩) ∧
      t.Stops extra failure s.world halt world stop := by
  obtain ⟨halt, world, stop, checked, stops⟩ :=
    mustBeOk_stops (α := α) recorded hears extra failure
  refine ⟨halt, world, stop, ?_, stops⟩
  simp only [require, Except.mapError, checked]

theorem output_refused (recorded : t.Recorded) (hears : s.world.Hears) (asked value : String)
    {failure : Failure} {log : String}
    (refuses : c.Refuses (c.complete outside words s) (c.replyTo outside words "" s) failure log) :
    ∃ halt world stop,
      output t asked value c outside words s =
        (.error halt, ⟨c.callOf outside words "" s :: s.calls, world⟩) ∧
      t.Stops [(asked, .text value), ("log", .text log)] failure s.world halt world stop := by
  obtain ⟨judged, logged⟩ := judge_refused refuses
  have result := (c.invoke_result outside words "" s).trans judged
  have calls := c.invoke_calls outside words "" s
  have noted := c.invoke_world outside words "" s
  generalize ran : c.invoke outside words "" s = invoked at result calls noted
  obtain ⟨given, after⟩ := invoked
  subst result
  obtain ⟨halt, world, stop, stopped, stops⟩ := require_error (α := CommandOutput) recorded
    (noted.hears hears) [(asked, .text value), ("log", .text log)] failure
  refine ⟨halt, world, stop, ?_, stops.of_noted noted⟩
  rw [← calls, ← stopped, output, ran]
  simp only [commandLog, logged]
  rfl

theorem output_given (asked value : String) {finished : Finished}
    (reply : c.replyTo outside words "" s = .ok finished) (success : finished.success = true) :
    ∃ o world,
      output t asked value c outside words s =
        (.ok o, ⟨c.callOf outside words "" s :: s.calls, world⟩) ∧
      o.output = finished.output ∧ NotedOnly s.world world := by
  have result := c.invoke_result outside words "" s
  rw [reply, judge_succeeded _ _ success] at result
  have calls := c.invoke_calls outside words "" s
  have noted := c.invoke_world outside words "" s
  generalize ran : c.invoke outside words "" s = invoked at result calls noted
  obtain ⟨given, after⟩ := invoked
  subst result
  refine ⟨⟨finished.output, Command.record c.daemon (c.complete outside words s) finished.output⟩,
    after.world, ?_, rfl, noted⟩
  rw [← calls, output, ran]
  rfl

theorem decoded_refused (recorded : t.Recorded) (hears : s.world.Hears) {o : CommandOutput}
    {failure : Failure} (refused : Account.ofOutput o.output = .error failure) :
    ∃ halt world stop,
      decoded t Account.ofOutput o s = (.error halt, ⟨s.calls, world⟩) ∧
      t.Stops [("acc_bytes", .text o.text)] failure s.world halt world stop := by
  obtain ⟨halt, world, stop, stopped, stops⟩ := require_error (α := Account) recorded hears
    [("acc_bytes", .text o.text)] failure
  refine ⟨halt, world, stop, ?_, stops⟩
  rw [← stopped, decoded, refused]
  rfl

theorem decoded_given {o : CommandOutput} {account : Account}
    (read : Account.ofOutput o.output = .ok account) :
    decoded t Account.ofOutput o s = (.ok account, s) := by
  rw [decoded, read]
  rfl

end Steps

theorem isAddress_addressOf (o : CommandOutput) : IsAddress o.output (addressOf o) := by
  have text : o.text.toList = Text.Utf8.lossyChars o.output := by
    simp [CommandOutput.text, Text.Utf8.lossy]
  have stripped := Text.padded_stripBoth isPadding o.text.toList
  have address : (addressOf o).toList = Text.stripBoth isPadding o.text.toList := by
    simp [addressOf]
  have padding : isPadding = fun ch => ch = '\n' || ch = ' ' := by
    funext ch
    rfl
  rw [IsAddress, address, ← text, ← padding]
  exact stripped

section Stages

variable {c : Client} {outside : Outside} {name : String} {s : Session} {t : Context}

theorem accountOfName_refused (recorded : t.Recorded) (hears : s.world.Hears) {failure : Failure}
    {log : String} (refuses : c.Refuses (keyWords name) (keyReply c outside name s) failure log) :
    ∃ halt world stop,
      accountOfName c outside name t s = (.error halt, ⟨keyCall c name :: s.calls, world⟩) ∧
      t.Stops [("account", .text name), ("log", .text log)] failure s.world halt world stop := by
  have call := callOf_key c outside name s
  have words : c.complete outside ["keys", "show", name, "-a"] s = keyWords name :=
    congrArg Call.arguments call
  rw [keyReply, ← call, ← words] at refuses
  obtain ⟨halt, world, stop, stopped, stops⟩ :=
    output_refused recorded hears "account" name refuses
  refine ⟨halt, world, stop, ?_, stops⟩
  rw [accountOfName, address, stopped, call]
  rfl

theorem accountOfName_keyed {key : Finished} (replied : keyReply c outside name s = .ok key)
    (success : key.success = true) :
    ∃ address next,
      accountOfName c outside name t s = accountOfAddress c outside address t next ∧
      IsAddress key.output address ∧ next.calls = keyCall c name :: s.calls ∧
      NotedOnly s.world next.world := by
  have call := callOf_key c outside name s
  rw [keyReply, ← call] at replied
  obtain ⟨o, world, given, output, noted⟩ :=
    output_given (t := t) "account" name replied success
  refine ⟨addressOf o, ⟨keyCall c name :: s.calls, world⟩, ?_, output ▸ isAddress_addressOf o, rfl,
    noted⟩
  rw [accountOfName, address, given, call]
  rfl

theorem looksUp_keyed (recorded : t.Recorded) (hears : s.world.Hears) {key : Finished}
    {address : String} {next : Session} (replied : keyReply c outside name s = .ok key)
    (success : key.success = true) (isAddress : IsAddress key.output address)
    (calls : next.calls = keyCall c name :: s.calls) (noted : NotedOnly s.world next.world) :
    LooksUp c outside name s t (accountOfAddress c outside address t next).1
      (accountOfAddress c outside address t next).2 := by
  have hearsToo : next.world.Hears := noted.hears hears
  have length : next.calls.length = s.calls.length + 1 := by rw [calls, List.length_cons]
  have call := callOf_account c outside s address length
  have words : c.complete outside ["query", "account", address] next =
      accountWords c.options.nodes (outside.draw (s.calls.length + 1)) address :=
    congrArg Call.arguments call
  have reply : c.replyTo outside ["query", "account", address] "" next =
      accountReply c outside s address := by rw [replyTo, call, length, accountReply]
  rcases c.refuses_or_succeeds
      (accountWords c.options.nodes (outside.draw (s.calls.length + 1)) address)
      (accountReply c outside s address) with ⟨failure, log, refuses⟩ | ⟨found, answered, given⟩
  · obtain ⟨halt, after, stop, stopped, stops⟩ :=
      output_refused recorded hearsToo "address" address (words ▸ reply ▸ refuses)
    have ended : accountOfAddress c outside address t next =
        (.error halt, ⟨accountCall c outside s address :: keyCall c name :: s.calls, after⟩) := by
      rw [accountOfAddress, ofAddress, List.cons_append, List.cons_append, List.nil_append,
        stopped, call, calls]
    rw [ended]
    exact .noAccount replied success isAddress refuses (stops.of_noted noted)
  · obtain ⟨o, after, ran, output, behind⟩ :=
      output_given (t := t) "address" address (reply.trans answered) given
    have reads : accountOfAddress c outside address t next = decoded t Account.ofOutput o
        ⟨accountCall c outside s address :: keyCall c name :: s.calls, after⟩ := by
      rw [accountOfAddress, ofAddress, List.cons_append, List.cons_append, List.nil_append,
        ran, call, calls]
    rw [reads]
    cases read : Account.ofOutput o.output with
    | error failure =>
      obtain ⟨halt, last, stop, stopped, stops⟩ := decoded_refused recorded
        (s := ⟨accountCall c outside s address :: keyCall c name :: s.calls, after⟩)
        (behind.hears hearsToo) read
      rw [stopped]
      rw [CommandOutput.text, output] at stops
      exact .unreadable replied success isAddress answered given (output ▸ read)
        (stops.of_noted (noted.trans behind))
    | ok account =>
      rw [decoded_given read]
      exact .found replied success isAddress answered given (output ▸ read) (noted.trans behind)

end Stages

/-- A lookup makes the first call, the second one only behind a success, and stops the test at the
first failure, with what was asked for. -/
theorem accountOfName_looksUp (c : Client) (outside : Outside) (name : String) (t : Context)
    (s : Session) (recorded : t.Recorded) (hears : s.world.Hears) :
    LooksUp c outside name s t (accountOfName c outside name t s).1
      (accountOfName c outside name t s).2 := by
  rcases c.refuses_or_succeeds (keyWords name) (keyReply c outside name s) with
    ⟨failure, log, refuses⟩ | ⟨key, replied, success⟩
  · obtain ⟨halt, world, stop, stopped, stops⟩ := accountOfName_refused recorded hears refuses
    rw [stopped]
    exact .noKey refuses stops
  · obtain ⟨address, next, keyed, isAddress, calls, noted⟩ := accountOfName_keyed replied success
    rw [keyed]
    exact looksUp_keyed recorded hears replied success isAddress calls noted

/-- A key is found, and then no node answers. -/
def silentNode : Outside where
  run place _ := if place = 0 then .ok ⟨[0x20, 0x61, 0x0a], some 0, true⟩ else .error "gone"
  draw _ := 0

def lister : Client := ⟨{ Options.standard with node := "n" }, .standard, "d"⟩

/-- A test with a field of the name under which a lookup tells its record, and a listener for its
failure. -/
def loggedTest : Context :=
  (Context.root .native (.recorder "t")).withFields (Fields.ofList [("log", .null)])

def listened : Session :=
  ⟨[], { World.start 2 with signals := Signals.empty.register failEvent (.reporter "l" []) }⟩

theorem silentNode_looksUp :
    loggedTest.Recorded ∧ listened.world.Hears ∧
      LooksUp lister silentNode "k" listened loggedTest
        (accountOfName lister silentNode "k" loggedTest listened).1
        (accountOfName lister silentNode "k" loggedTest listened).2 ∧
      (accountOfName lister silentNode "k" loggedTest listened).2.calls =
        [⟨"d", ["query", "account", "a", "--node", "n"], ""⟩,
          ⟨"d", ["keys", "show", "k", "-a", "--keyring-backend", "test"], ""⟩] := by
  have recorded : loggedTest.Recorded := ⟨rfl, "t", rfl⟩
  have hears : listened.world.Hears := ⟨_, rfl⟩
  exact ⟨recorded, hears, accountOfName_looksUp _ _ _ _ _ recorded hears, rfl⟩

end Lookup
end NodeHarness
