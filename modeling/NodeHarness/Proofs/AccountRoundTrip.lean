import NodeHarness.Proofs.Envelope
import NodeHarness.Proofs.JsonRoundTrip

/-! Accounts are read back from their prints. An object spells an account when each of its four
members is there in one of its forms, or is left out where the account has nothing; what other
members there are, and in which order, makes no difference. -/
namespace NodeHarness.Account

open Json

/-- A number is written as an integer, or in decimal digits with white space around them. -/
inductive SpellsNumber (n : Nat) : Json → Prop
  | integer : SpellsNumber n (.number (.natural n))
  | text {front digits back : List Char} : Text.Decimal.Digits digits →
    Nat.ofDigitChars 10 digits 0 = n → (∀ c ∈ front, Text.isBlank c = true) →
    (∀ c ∈ back, Text.isBlank c = true) →
    SpellsNumber n (.text (String.ofList (front ++ digits ++ back)))

inductive SpellsKey : Option Json → Json → Prop
  | null : SpellsKey none .null
  | value {v : Json} : v ≠ .null → v.Exact → SpellsKey (some v.canonical) v

structure Spells (account : Account) (members : List (String × Json)) : Prop where
  address : OnceOrOut (· = .text account.address) (account.address = "") (values "address" members)
  accountNumber : OnceOrOut (SpellsNumber account.accountNumber) (account.accountNumber = 0)
    (values "account_number" members)
  sequence : OnceOrOut (SpellsNumber account.sequence) (account.sequence = 0)
    (values "sequence" members)
  publicKey : OnceOrOut (SpellsKey account.publicKey) (account.publicKey = none)
    (values "pub_key" members)

/-- The document is the object itself, or has it as its only member `value`. -/
inductive Holds (members : List (String × Json)) : Json → Prop
  | bare : values "value" members = [] → Holds members (.object members)
  | wrapped {outer : List (String × Json)} : values "value" outer = [.object members] →
    Holds members (.object outer)

theorem spells_digits {front digits back : List Char} {n : Nat}
    (written : Text.Decimal.Digits digits) (before : ∀ c ∈ front, Text.isBlank c = true)
    (behind : ∀ c ∈ back, Text.isBlank c = true) (number : Nat.ofDigitChars 10 digits 0 = n)
    (fits : n < Text.Decimal.words64) :
    (Json.text (String.ofList (front ++ digits ++ back))).Spells n := by
  rw [← number] at fits ⊢
  rw [← natural64_spells, natural64, String.toList_ofList, Text.trim_digits written before behind,
    Text.Decimal.readBelow_digits written fits]

theorem values_reread (name : String) (members : List (String × Json)) :
    values name (rereadMembers members) = (values name members).map reread := by
  induction members with
  | nil => rfl
  | cons member rest ih =>
    obtain ⟨other, v⟩ := member
    rw [rereadMembers, values_cons, values_cons, ih]
    split <;> rfl

theorem SpellsNumber.read {n : Nat} {v : Json} (spells : SpellsNumber n v)
    (fits : n < Text.Decimal.words64) : v.reread = v ∧ v.Spells n := by
  cases spells with
  | integer => exact ⟨JsonNumber.reread_integer (n := .natural n) fits (by simp), .integer⟩
  | text written number before behind =>
    exact ⟨rfl, spells_digits written before behind number fits⟩

theorem SpellsKey.read {key : Option Json} {v : Json} (spells : SpellsKey key v) :
    v.reread = v ∧ GivesKey key v := by
  cases spells with
  | null => exact ⟨rfl, .null⟩
  | value some exact => exact ⟨reread_exact v exact, .value some⟩

theorem OnceOrOut.reread {spells gives : Json → Prop} {out : Prop} {vs : List Json}
    (once : OnceOrOut spells out vs) (read : ∀ v, spells v → v.reread = v ∧ gives v) :
    OnceOrOut gives out (vs.map Json.reread) := by
  rcases once with ⟨v, rfl, spelled⟩ | ⟨rfl, out⟩
  · obtain ⟨same, given⟩ := read v spelled
    exact .inl ⟨v, by rw [List.map_singleton, same], given⟩
  · exact .inr ⟨rfl, out⟩

theorem ofEnvelope?_bare {members : List (String × Json)} (none : values "value" members = []) :
    ofEnvelope? (.object members) = .none := by
  rw [ofEnvelope?]
  split
  · next filtered =>
    have found : values "value" members = [_] := congrArg (List.map Prod.snd) filtered
    rw [none] at found
    cases found
  · rfl

theorem ofEnvelope?_wrapped {members : List (String × Json)} {v : Json}
    (only : values "value" members = [v]) : ofEnvelope? (.object members) = ofJson? v := by
  obtain ⟨⟨name, _⟩, single, rfl⟩ := List.map_eq_singleton_iff.mp only
  rw [ofEnvelope?]
  split
  · next filtered =>
    cases filtered.symm.trans single
    rfl
  · next several => exact absurd single (several _ _)

section Spelled

variable {account : Account} {members : List (String × Json)}
  (spells : account.Spells members) (accountNumber : account.accountNumber < Text.Decimal.words64)
  (sequence : account.sequence < Text.Decimal.words64)

include spells accountNumber sequence

theorem ofMembers?_reread : ofMembers? (rereadMembers members) = some account := by
  have text (v : Json) (is : v = .text account.address) :
      v.reread = v ∧ v = .text account.address := by
    subst is
    exact ⟨rfl, rfl⟩
  have address := spells.address.reread text
  have first := spells.accountNumber.reread fun _ spelled => spelled.read accountNumber
  have second := spells.sequence.reread fun _ spelled => spelled.read sequence
  have key := spells.publicKey.reread fun _ spelled => spelled.read
  simp only [← values_reread] at address first second key
  exact ofMembers?_eq_some.mpr ⟨address, first, second, key⟩

theorem ofDocument_reread {document : Json} (holds : Holds members document) :
    ofDocument document.reread = .ok account := by
  have inner := ofMembers?_reread spells accountNumber sequence
  cases holds with
  | bare none =>
    have plain : values "value" (rereadMembers members) = [] := by rw [values_reread, none]; rfl
    rw [reread, ofDocument, ofEnvelope?_bare plain, ofJson?, inner]
    rfl
  | @wrapped outer only =>
    have single : values "value" (rereadMembers outer) = [.object (rereadMembers members)] := by
      rw [values_reread, only]
      rfl
    rw [reread, ofDocument, ofEnvelope?_wrapped single, ofJson?, inner]
    rfl

/-- The account is read back from every print of an object that spells it. -/
theorem readsBack {document : Json} (holds : Holds members document)
    (shallow : document.nesting < depthLimit) (sized : ∀ n ∈ document.numbers, n.Sized) :
    ofOutput (Text.Utf8.encode document.compact) = .ok account := by
  rw [ofOutput_eq (ofBytes_compact shallow sized),
    ofDocument_reread spells accountNumber sequence holds]

end Spelled

def seventhKey : Json := .object [("key", .list [.number (.negative 0), .null])]

/-- The account number is left out, and nobody reads the weight. -/
def seventhMembers : List (String × Json) :=
  [("sequence", .text (String.ofList ([' '] ++ ['0', '7'] ++ ['\n', '\t']))),
    ("weight", .number (.floating ⟨false, 0x3ff8000000000000⟩)),
    ("pub_key", seventhKey),
    ("address", .text "\"a\\")]

def seventhDocument : Json := .object [("value", .object seventhMembers), ("type", .text "Base")]

def seventh : Account := ⟨"\"a\\", 0, 7, some seventhKey⟩

theorem seventh_readsBack :
    seventh.Spells seventhMembers ∧
      ofOutput (Text.Utf8.encode seventhDocument.compact) = .ok seventh := by
  have exact : seventhKey.Exact := by
    intro n member
    obtain rfl := List.mem_singleton.mp member
    exact ⟨by decide, by simp⟩
  have spells : seventh.Spells seventhMembers := by
    refine ⟨.inl ⟨_, rfl, rfl⟩, .inr ⟨rfl, rfl⟩, .inl ⟨_, rfl, ?_⟩, .inl ⟨_, rfl, ?_⟩⟩
    · exact .text ⟨by simp, by simp⟩ rfl (by simp [Text.isBlank, Text.blankRanges])
        (by simp [Text.isBlank, Text.blankRanges])
    · exact SpellsKey.value (v := seventhKey) (by simp [seventhKey]) exact
  exact ⟨spells, readsBack spells (by decide) (by decide) (.wrapped rfl) (by decide) (by decide)⟩

end NodeHarness.Account
