import NodeHarness.Proofs.Invocation

/-! The words of a completed command. The caller's words stay where they are; behind them stand at
most a pair that names a node and a pair that names the keyring. Which pairs there are is decided by
the caller's words alone: the flag of a pair is no word of a command that is looked for, so no such
command can reach past the caller's words. -/
namespace NodeHarness

namespace Command

def keyringCommands : List (List String) :=
  [["keys"], ["tx", "sign"], ["tx", "pylons", "create-account"]]

def nodeCommands : List (List String) := [["query"], ["tx"], ["status"]]

def BeginsWith (commands : List (List String)) (words : List String) : Prop :=
  ∃ command ∈ commands, command <+: words

section Decisions

variable {commands : List (List String)} {words : List String}

theorem beginsWith_keyring : BeginsWith keyringCommands words ↔
    ["keys"] <+: words ∨ ["tx", "sign"] <+: words ∨
      ["tx", "pylons", "create-account"] <+: words := by
  simp [BeginsWith, keyringCommands]

theorem opensKeyring_iff : opensKeyring words = true ↔ BeginsWith keyringCommands words := by
  rw [beginsWith_keyring]
  -- as far as the longest command goes, every length of the words is a case of its own
  match words with
  | [] => simp [opensKeyring]
  | [first] => simp [opensKeyring, eq_comm (a := first)]
  | [first, second] => simp [opensKeyring, eq_comm (a := first), eq_comm (a := second)]
  | first :: second :: third :: rest =>
    simp [opensKeyring, and_or_left, eq_comm (a := first), eq_comm (a := second),
      eq_comm (a := third)]

theorem asksNode_iff : asksNode words = true ↔ BeginsWith nodeCommands words := by
  cases words with
  | nil => simp [asksNode, BeginsWith, nodeCommands]
  | cons first rest => simp [asksNode, BeginsWith, nodeCommands, or_assoc, eq_comm (a := first)]

/-- What stands behind a word that is in none of the commands does not count. -/
theorem beginsWith_append_cons {word : String} (foreign : ∀ command ∈ commands, word ∉ command)
    (more : List String) :
    BeginsWith commands (words ++ word :: more) ↔ BeginsWith commands words := by
  constructor
  · rintro ⟨command, known, begins⟩
    refine ⟨command, known, ?_⟩
    rcases List.prefix_or_prefix_of_prefix begins (List.prefix_append words (word :: more)) with
      within | ⟨reach, rfl⟩
    · exact within
    · -- a command that goes on behind the words would go on with the foreign word
      cases reach with
      | nil => simp
      | cons next reach =>
        have goesOn : next :: reach <+: word :: more :=
          (List.prefix_append_right_inj words).mp begins
        obtain ⟨rfl, _⟩ := List.cons_prefix_cons.mp goesOn
        exact absurd (by simp) (foreign _ known)
  · rintro ⟨command, known, begins⟩
    exact ⟨command, known, begins.trans (List.prefix_append _ _)⟩

theorem nodeFlag_foreign : ∀ command ∈ keyringCommands, nodeFlag ∉ command := by decide

theorem keyringFlag_foreign : ∀ command ∈ nodeCommands, keyringFlag ∉ command := by decide

/-- No endpoint, whatever its text, opens the keyring. -/
theorem opensKeyring_nodePair (words : List String) (node : String) :
    opensKeyring (words ++ [nodeFlag, node]) = opensKeyring words := by
  rw [Bool.eq_iff_iff, opensKeyring_iff, opensKeyring_iff]
  exact beginsWith_append_cons nodeFlag_foreign [node]

theorem asksNode_keyringPair (words : List String) :
    asksNode (words ++ [keyringFlag, keyringKind]) = asksNode words := by
  rw [Bool.eq_iff_iff, asksNode_iff, asksNode_iff]
  exact beginsWith_append_cons keyringFlag_foreign [keyringKind]

end Decisions

section Pairs

variable (nodes words : List String)

/-- What is appended for the node: one of the nodes behind its flag, or nothing. -/
inductive NodePart : List String → Prop
  | asked {node : String} : BeginsWith nodeCommands words → node ∈ nodes →
      NodePart [nodeFlag, node]
  | unasked : ¬ (BeginsWith nodeCommands words ∧ nodes ≠ []) → NodePart []

/-- What is appended for the keyring. -/
inductive KeyringPart : List String → Prop
  | opened : BeginsWith keyringCommands words → KeyringPart [keyringFlag, keyringKind]
  | closed : ¬ BeginsWith keyringCommands words → KeyringPart []

theorem endpoint?_eq_none {nodes : List String} {draw : Nat} :
    endpoint? nodes draw = none ↔ nodes = [] := by
  rw [endpoint?, List.getElem?_eq_none_iff]
  constructor
  · intro none
    refine List.eq_nil_of_length_eq_zero (Nat.eq_zero_of_not_pos fun some => ?_)
    exact Nat.not_lt_of_le none (Nat.mod_lt draw some)
  · rintro rfl
    exact Nat.zero_le _

/-- Every endpoint is drawn by some number. -/
theorem exists_draw {node : String} (member : node ∈ nodes) :
    ∃ draw, endpoint? nodes draw = some node := by
  obtain ⟨place, within, rfl⟩ := List.mem_iff_getElem.mp member
  refine ⟨place, ?_⟩
  rw [endpoint?, Nat.mod_eq_of_lt within, List.getElem?_eq_getElem within]

theorem withNode_part (draw : Nat) :
    ∃ part, NodePart nodes words part ∧ withNode nodes draw words = words ++ part := by
  cases asks : asksNode words with
  | false =>
    refine ⟨[], .unasked ?_, by simp [withNode, asks]⟩
    rintro ⟨begins, _⟩
    rw [asksNode_iff.mpr begins] at asks
    cases asks
  | true =>
    cases drawn : endpoint? nodes draw with
    | none =>
      refine ⟨[], .unasked ?_, by simp [withNode, asks, drawn]⟩
      rintro ⟨_, some⟩
      exact some (endpoint?_eq_none.mp drawn)
    | some node =>
      have member : node ∈ nodes := List.mem_of_getElem? drawn
      exact ⟨_, .asked (asksNode_iff.mp asks) member, by simp [withNode, asks, drawn]⟩

/-- Words that do not change whether the keyring is opened do not change what is appended for it. -/
theorem withKeyring_part {words more : List String}
    (same : opensKeyring (words ++ more) = opensKeyring words) :
    ∃ part, KeyringPart words part ∧ withKeyring (words ++ more) = words ++ more ++ part := by
  cases opens : opensKeyring words with
  | false =>
    refine ⟨[], .closed fun begins => ?_, by simp [withKeyring, same, opens]⟩
    rw [opensKeyring_iff.mpr begins] at opens
    cases opens
  | true => exact ⟨_, .opened (opensKeyring_iff.mp opens), by simp [withKeyring, same, opens]⟩

/-- The pair for the keyring is chosen as if no node had been named. -/
theorem complete_parts (draw : Nat) :
    ∃ node keyring, NodePart nodes words node ∧ KeyringPart words keyring ∧
      withNode nodes draw words = words ++ node ∧
      complete nodes draw words = words ++ node ++ keyring := by
  obtain ⟨node, part, named⟩ := withNode_part nodes words draw
  have same : opensKeyring (words ++ node) = opensKeyring words := by
    cases part with
    | asked => exact opensKeyring_nodePair words _
    | unasked => rw [List.append_nil]
  obtain ⟨keyring, opened, completed⟩ := withKeyring_part same
  exact ⟨node, keyring, part, opened, named, by rw [complete, named, completed]⟩

end Pairs

/-- How completing treats the words of a command, for every list of nodes. -/
structure Appends (nodes words : List String) : Prop where
  completed : ∀ draw, ∃ node keyring, NodePart nodes words node ∧ KeyringPart words keyring ∧
    complete nodes draw words = words ++ node ++ keyring
  /-- Which node is named is for the draw to say. -/
  drawn : BeginsWith nodeCommands words → ∀ node ∈ nodes, ∃ draw keyring,
    KeyringPart words keyring ∧ complete nodes draw words = words ++ [nodeFlag, node] ++ keyring
  keyringKept : ∀ node, opensKeyring (words ++ [nodeFlag, node]) = opensKeyring words
  nodeKept : asksNode (words ++ [keyringFlag, keyringKind]) = asksNode words

theorem appends (nodes words : List String) : Appends nodes words where
  completed draw := by
    obtain ⟨node, keyring, part, opened, _, completed⟩ := complete_parts nodes words draw
    exact ⟨node, keyring, part, opened, completed⟩
  drawn begins node member := by
    obtain ⟨draw, chosen⟩ := exists_draw nodes member
    obtain ⟨part, keyring, _, opened, named, completed⟩ := complete_parts nodes words draw
    have pair : part = [nodeFlag, node] := by
      simpa [withNode, asksNode_iff.mpr begins, chosen] using named.symm
    exact ⟨draw, keyring, opened, pair ▸ completed⟩
  keyringKept := opensKeyring_nodePair words
  nodeKept := asksNode_keyringPair words

end Command

/-- A command is completed by appending, and so is every command that a client runs. -/
theorem command_appends :
    (∀ nodes words, Command.Appends nodes words) ∧
    ∀ (c : Client) (outside : Outside) (words : List String) (input : String) (s : Session),
      ∃ call node keyring, (c.invoke outside words input s).2.calls = call :: s.calls ∧
        Command.NodePart c.options.nodes words node ∧ Command.KeyringPart words keyring ∧
        call.arguments = words ++ node ++ keyring := by
  refine ⟨Command.appends, ?_⟩
  intro c outside words input s
  obtain ⟨node, keyring, part, opened, completed⟩ :=
    (Command.appends c.options.nodes words).completed (outside.draw s.calls.length)
  exact ⟨_, node, keyring, c.invoke_calls outside words input s, part, opened, completed⟩

/-- An endpoint that reads like the rest of a command that opens the keyring. -/
example : Command.complete ["create-account"] 0 ["tx", "pylons"] =
    ["tx", "pylons", "--node", "create-account"] := by
  decide

end NodeHarness
