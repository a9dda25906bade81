import NodeHarness.Proofs.AccountMembers

/-! The envelope around an account. An envelope whose value is no account is not refused: it is
read as an account itself, and as none of its members are those of one, as the blank account. -/
namespace NodeHarness

open Json

/-- A reader that works on the value of a document sees the value that was read. -/
theorem Json.Document.decode_value {α : Type} {d : Document} {v : Json}
    (read : d.value = .ok v) (f : Json → Except Fault α) :
    d.decode (fun o => do f (← Outline.value depthLimit o)) = f v := by
  simp only [Document.value, Document.decode] at read ⊢
  cases root : Outline.value depthLimit d.root with
  | error fault =>
    rw [root] at read
    cases read
  | ok found =>
    rw [root] at read
    simp only at read
    split at read
    · rename_i clean
      cases read
      simp only [bind, Except.bind, clean, if_true]
      cases f v <;> rfl
    · cases read

namespace Account

theorem ofOutput_eq {bytes : List UInt8} {v : Json} (read : Json.ofBytes bytes = .ok v) :
    ofOutput bytes = match ofDocument v with
      | .ok account => .ok account
      | .error fault => .error (.decode "account" (Text.Utf8.lossy bytes) fault) := by
  cases made : ofDocument v <;>
    simp only [ofOutput, decodeOutput, Document.decode_value read, made]

theorem ofMembers?_eq_none {members : List (String × Json)} (invalid : ¬ IsAccount members) :
    ofMembers? members = none := by
  cases found : ofMembers? members with
  | none => rfl
  | some account => exact absurd (isAccount_iff.mpr ⟨account, ofMembers?_eq_some.mp found⟩) invalid

def blank : Account := ⟨"", 0, 0, none⟩

/-- No member of an envelope is one of an account. -/
theorem envelope_blank (kind v : Json) : ofMembers? [("type", kind), ("value", v)] = some blank :=
  rfl

theorem ofDocument_envelope (kind : Json) (members : List (String × Json)) :
    ofDocument (.object [("type", kind), ("value", .object members)]) =
      .ok ((ofMembers? members).getD blank) := by
  have inner : ofEnvelope? (.object [("type", kind), ("value", .object members)]) =
      ofMembers? members := rfl
  rw [ofDocument, inner, ofJson?, envelope_blank]
  cases ofMembers? members <;> rfl

/-- What an envelope promises: the account that its value tells, or a refusal that keeps the
text. -/
def Transparent (bytes : List UInt8) (members : List (String × Json)) : Prop :=
  (∀ account, Tells members account → ofOutput bytes = .ok account) ∧
  (¬ IsAccount members →
    ∃ fault, ofOutput bytes = .error (.decode "account" (Text.Utf8.lossy bytes) fault))

/-- An envelope gives its value's account, or the blank account where the promise is a refusal. -/
theorem envelope_exact (bytes : List UInt8) (kind : String) (members : List (String × Json))
    (read : Json.ofBytes bytes = .ok (.object [("type", .text kind), ("value", .object members)])) :
    (IsAccount members ↔ ∃ account, Tells members account) ∧
    (∀ account, Tells members account → ofOutput bytes = .ok account) ∧
    (¬ IsAccount members → ofOutput bytes = .ok blank) ∧
    (Transparent bytes members ↔ IsAccount members) := by
  have output : ofOutput bytes = .ok ((ofMembers? members).getD blank) := by
    rw [ofOutput_eq read, ofDocument_envelope]
  have valid : ∀ account, Tells members account → ofOutput bytes = .ok account := by
    intro account tells
    rw [output, ofMembers?_eq_some.mpr tells]
    rfl
  have invalid : ¬ IsAccount members → ofOutput bytes = .ok blank := by
    intro other
    rw [output, ofMembers?_eq_none other]
    rfl
  refine ⟨isAccount_iff, valid, invalid, ?_, ?_⟩
  · intro kept
    refine Classical.byContradiction fun other => ?_
    obtain ⟨fault, refused⟩ := kept.2 other
    rw [invalid other] at refused
    cases refused
  · intro account
    exact ⟨valid, fun other => absurd account other⟩

/-- The bytes of `{"type":"","value":{"sequence":-1}}`. -/
def belowZero : List UInt8 :=
  [0x7b, 0x22, 0x74, 0x79, 0x70, 0x65, 0x22, 0x3a, 0x22, 0x22, 0x2c, 0x22, 0x76, 0x61, 0x6c, 0x75,
    0x65, 0x22, 0x3a, 0x7b, 0x22, 0x73, 0x65, 0x71, 0x75, 0x65, 0x6e, 0x63, 0x65, 0x22, 0x3a, 0x2d,
    0x31, 0x7d, 0x7d]

/-- The number below zero is no account's, and the envelope around it gives the blank account. -/
theorem belowZero_blank :
    Json.ofBytes belowZero = .ok (.object
      [("type", .text ""), ("value", .object [("sequence", .number (.negative 0))])]) ∧
    ofOutput belowZero = .ok blank ∧
    ¬ Transparent belowZero [("sequence", .number (.negative 0))] := by
  have read : Json.ofBytes belowZero = .ok (.object
      [("type", .text ""), ("value", .object [("sequence", .number (.negative 0))])]) := rfl
  have other : ¬ IsAccount [("sequence", .number (.negative 0))] := by
    intro account
    obtain ⟨n, number⟩ := account.sequence.2 _ List.mem_cons_self
    cases number
  obtain ⟨_, _, invalid, transparent⟩ := envelope_exact belowZero "" _ read
  exact ⟨read, invalid other, fun kept => other (transparent.mp kept)⟩

end Account
end NodeHarness
