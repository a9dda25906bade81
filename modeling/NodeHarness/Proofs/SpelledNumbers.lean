import NodeHarness.Proofs.AccountRoundTrip
import NodeHarness.Proofs.ScanExtension
import NodeHarness.Proofs.StatusFormat

/-! The places that a number has in a document. Wherever a number can stand, it is read in both of
its spellings, and the two are read as the same. -/
namespace NodeHarness

open Json

namespace Json.Outline

theorem foldMembers_only {σ : Type} {take : String → Option (σ → Outline → Except Fault σ)}
    {read : σ → Outline → Except Fault σ} {name : String} (known : take name = some read)
    (state : σ) (o : Outline) :
    foldMembers take state [(⟨escapedBytes name.toList, .closed⟩, o)] = read state o := by
  rw [foldMembers, decode_escapedBytes]
  simp only [bind, Except.bind, known, foldMembers]
  cases read state o <;> rfl

theorem value_only {depth : Nat} (deep : ¬ depth ≤ 1) (name : String) (o : Outline) :
    (only name o).value depth =
      (o.value (depth - 1)).map fun v => .object [(name, v)] := by
  rw [only, Outline.value, if_neg deep, valueMembers, decode_escapedBytes]
  simp only [bind, Except.bind, valueMembers]
  cases o.value (depth - 1) <;> rfl

end Json.Outline

open Json.Outline

theorem decodeOutput_eq_ok {α : Type} {what : String} {read : Outline → Except Fault α}
    {bytes : List UInt8} {a : α} :
    decodeOutput what (Document.decode read) bytes = .ok a ↔
      read (documentOf bytes).root = .ok a ∧ (documentOf bytes).clean = true := by
  rw [decodeOutput, Document.decode]
  cases read (documentOf bytes).root with
  | error fault => simp
  | ok b => cases (documentOf bytes).clean <;> simp

theorem SyncInfo.decode_only {depth : Nat} (deep : ¬ depth ≤ 1) (o : Outline) :
    SyncInfo.decode depth (only heightName o) =
      (readHeight (depth - 1) o).map fun n => ⟨n, "", false⟩ := by
  rw [SyncInfo.decode, only, decodeRecord, if_neg deep, SyncInfo.ofMembers,
    foldMembers_only (if_pos rfl)]
  simp only [readOnce, Option.isSome_none]
  cases readHeight (depth - 1) o <;> rfl

theorem NodeStatus.decode_only {depth : Nat} (deep : ¬ depth ≤ 1) {spelling : String}
    (sync : isSyncName spelling = true) (o : Outline) :
    NodeStatus.decode depth (only spelling o) =
      (SyncInfo.decode (depth - 1) o).map NodeStatus.mk := by
  rw [NodeStatus.decode, only, decodeRecord, if_neg deep, NodeStatus.ofMembers,
    foldMembers_only (if_pos sync)]
  simp only [SyncInfo.readOnce, Option.isSome_none]
  cases SyncInfo.decode (depth - 1) o <;> rfl

theorem NodeStatus.ofOutput_only {bytes : List UInt8} {spelling : String} {o : Outline}
    (sync : isSyncName spelling = true)
    (read : documentOf bytes = ⟨only spelling (only SyncInfo.heightName o), true⟩)
    (status : NodeStatus) :
    ofOutput bytes = .ok status ↔ ∃ n, o.Spells n ∧ status = ⟨⟨n, "", false⟩⟩ := by
  have deep : ¬ depthLimit ≤ 1 := by decide
  have deeper : ¬ depthLimit - 1 ≤ 1 := by decide
  rw [ofOutput, decodeOutput_eq_ok, read, NodeStatus.decode_only deep sync,
    SyncInfo.decode_only deeper]
  simp only [and_true, ← SyncInfo.readHeight_eq_ok (depthLimit - 1 - 1)]
  cases SyncInfo.readHeight (depthLimit - 1 - 1) o with
  | error fault => simp [Except.map]
  | ok n => simp [Except.map, eq_comm]

namespace Account

/-- An object whose one member is a number of an account. -/
theorem ofDocument_number {name : String} {make : Nat → Account} (bare : name ≠ "value") {v : Json}
    (taken : ofMembers? [(name, v)] = (natural? v).map make) (account : Account) :
    ofDocument (.object [(name, v)]) = .ok account ↔
      ∃ n, v.Spells n ∧ account = make n := by
  have alone : ofEnvelope? (.object [(name, v)]) = none := by
    apply ofEnvelope?_bare
    rw [values_cons, if_neg bare]
    rfl
  simp only [ofDocument, alone, ofJson?, taken, ← natural?_eq_some]
  cases natural? v <;> simp [eq_comm]

theorem ofOutput_number {name : String} {make : Nat → Account} (bare : name ≠ "value")
    (taken : ∀ v, ofMembers? [(name, v)] = (natural? v).map make) {bytes : List UInt8}
    {o : Outline} (read : documentOf bytes = ⟨only name o, true⟩) (account : Account) :
    ofOutput bytes = .ok account ↔ ∃ n, o.Spells n ∧ account = make n := by
  have deep : ¬ depthLimit ≤ 1 := by decide
  have document := fun v => ofDocument_number bare (taken v) account
  rw [ofOutput, decodeOutput_eq_ok, read, value_only deep]
  simp only [and_true, spells_iff (depthLimit - 1)]
  cases o.value (depthLimit - 1) with
  | error fault => simp [Except.map, bind, Except.bind]
  | ok v => simp [Except.map, bind, Except.bind, document, natural64_spells]

theorem accountNumber_taken (v : Json) :
    ofMembers? [("account_number", v)] = (natural? v).map fun n => ⟨"", n, 0, none⟩ := by
  have member : takeMember? .empty "account_number" v =
      (natural? v).map fun n => { Partial.empty with accountNumber := some n } := rfl
  rw [ofMembers?, takeMembers?, member]
  cases natural? v <;> rfl

theorem sequence_taken (v : Json) :
    ofMembers? [("sequence", v)] = (natural? v).map fun n => ⟨"", 0, n, none⟩ := by
  have member : takeMember? .empty "sequence" v =
      (natural? v).map fun n => { Partial.empty with sequence := some n } := rfl
  rw [ofMembers?, takeMembers?, member]
  cases natural? v <;> rfl

end Account

/-- The texts that spell a 64-bit number: digits alone, or a quoted text that has the number between
white space. -/
inductive SpelledAs (n : Nat) (bytes : List UInt8) : Prop
  | integer {whole : List Nat} : IntegerText bytes whole → ofDigitValues whole = n → n < 2 ^ 64 →
    SpelledAs n bytes
  | text {t : QuotedText} {s : String} {inner : List Char} : documentOf bytes = ⟨.text t, true⟩ →
    t.decode = .ok s → Text.Padded Text.isBlank s.toList inner → Text.Decimal.Denotes inner n →
    n < 2 ^ 64 → SpelledAs n bytes

theorem spelledAs_iff {bytes : List UInt8} {o : Outline} (read : documentOf bytes = ⟨o, true⟩)
    (n : Nat) : SpelledAs n bytes ↔ o.Spells n := by
  constructor
  · rintro (⟨written, value, fits⟩ | ⟨quoted, decoded, padded, denotes, fits⟩)
    · rw [documentOf_integer.mpr written] at read
      cases read
      exact .integer value fits
    · rw [quoted] at read
      cases read
      exact .text decoded padded denotes fits
  · rintro (⟨value, fits⟩ | ⟨decoded, padded, denotes, fits⟩)
    · exact .integer (documentOf_integer.mp read) value fits
    · exact .text read decoded padded denotes fits

/-- How the text of a value is read in the places of numbers: it gives the number that it spells,
and if it spells none, what it stands in is refused. -/
structure ReadsNumber (bytes : List UInt8) : Prop where
  height : ∀ depth n,
    SyncInfo.readHeight depth (documentOf bytes).root = .ok n ↔ SpelledAs n bytes
  natural : ∀ depth n, SpelledAs n bytes ↔
    ∃ v, (documentOf bytes).root.value depth = .ok v ∧ Account.natural? v = some n
  status : ∀ spelling, NodeStatus.isSyncName spelling = true → ∀ status,
    NodeStatus.ofOutput (around spelling (around SyncInfo.heightName bytes)) = .ok status ↔
      ∃ n, SpelledAs n bytes ∧ status = ⟨⟨n, "", false⟩⟩
  accountNumber : ∀ account,
    Account.ofOutput (around "account_number" bytes) = .ok account ↔
      ∃ n, SpelledAs n bytes ∧ account = ⟨"", n, 0, none⟩
  sequence : ∀ account,
    Account.ofOutput (around "sequence" bytes) = .ok account ↔
      ∃ n, SpelledAs n bytes ∧ account = ⟨"", 0, n, none⟩

theorem readsNumber {bytes : List UInt8} {o : Outline} (read : documentOf bytes = ⟨o, true⟩) :
    ReadsNumber bytes := by
  constructor <;> simp only [spelledAs_iff read]
  case height =>
    intro depth n
    rw [read]
    exact SyncInfo.readHeight_eq_ok depth o n
  case natural =>
    intro depth n
    simp only [read, Account.natural?_eq_some, ← natural64_spells]
    exact spells_iff depth o n
  case status =>
    intro spelling sync status
    have inner := documentOf_around SyncInfo.heightName read
    exact NodeStatus.ofOutput_only sync (documentOf_around spelling inner) status
  case accountNumber =>
    exact Account.ofOutput_number (by decide) Account.accountNumber_taken
      (documentOf_around "account_number" read)
  case sequence =>
    exact Account.ofOutput_number (by decide) Account.sequence_taken
      (documentOf_around "sequence" read)

/-- A text that is read as the number wherever one can stand. -/
structure GivesNumber (n : Nat) (bytes : List UInt8) : Prop where
  status : ∀ spelling, NodeStatus.isSyncName spelling = true →
    NodeStatus.ofOutput (around spelling (around SyncInfo.heightName bytes)) =
      .ok ⟨⟨n, "", false⟩⟩
  accountNumber : Account.ofOutput (around "account_number" bytes) = .ok ⟨"", n, 0, none⟩
  sequence : Account.ofOutput (around "sequence" bytes) = .ok ⟨"", 0, n, none⟩

theorem GivesNumber.of_spells {n : Nat} {v : Json} (spells : v.outline.Spells n) :
    GivesNumber n (Text.Utf8.encode v.compact) := by
  have read := documentOf_compact v
  have reads := readsNumber read
  have spelled := (spelledAs_iff read n).mpr spells
  refine ⟨?_, ?_, ?_⟩
  · intro spelling sync
    exact (reads.status spelling sync _).mpr ⟨n, spelled, rfl⟩
  · exact (reads.accountNumber _).mpr ⟨n, spelled, rfl⟩
  · exact (reads.sequence _).mpr ⟨n, spelled, rfl⟩

theorem spells_natural {n : Nat} (fits : n < 2 ^ 64) : (Json.natural n).outline.Spells n := by
  have value : ofDigitValues (digitValues (Text.Decimal.digits n)) = n := by
    rw [ofDigitValues, foldl_digitValues, Text.Decimal.value_digits]
  exact .integer value fits

theorem spells_padded {n : Nat} (fits : n < 2 ^ 64) {front back : List Char}
    (before : ∀ c ∈ front, Text.isBlank c = true) (behind : ∀ c ∈ back, Text.isBlank c = true) :
    (Json.text (String.ofList (front ++ Text.Decimal.digits n ++ back))).outline.Spells n := by
  have number := Account.spells_digits (Text.Decimal.digits_digits n) before behind
    (Text.Decimal.value_digits n) fits
  exact spells_text.mpr ⟨_, decode_escapedBytes _, natural64_spells.mpr number⟩

/-- The text of a value is read as a number exactly if it spells it, wherever a number can stand;
and a number, printed as it is or as its digits between any white space, is read as itself. -/
theorem numbers_both_spellings :
    (∀ bytes, (documentOf bytes).clean = true → ReadsNumber bytes) ∧
    ∀ n < 2 ^ 64, GivesNumber n (Text.Utf8.encode (Json.natural n).compact) ∧
      ∀ front back : List Char, (∀ c ∈ front, Text.isBlank c = true) →
        (∀ c ∈ back, Text.isBlank c = true) →
        GivesNumber n (Text.Utf8.encode
          (Json.text (String.ofList (front ++ Text.Decimal.digits n ++ back))).compact) := by
  constructor
  · intro bytes clean
    have read : documentOf bytes = ⟨(documentOf bytes).root, true⟩ := by
      rw [← clean]
    exact readsNumber read
  · intro n fits
    constructor
    · exact .of_spells (spells_natural fits)
    · intro front back before behind
      exact .of_spells (spells_padded fits before behind)

/-- The text `" +05"`, with its quotes. -/
def signedFive : List UInt8 := [0x22, 0x20, 0x2b, 0x30, 0x35, 0x22]

/-- It is read as a five, and so is five when it is printed as a number. -/
theorem signedFive_read :
    (documentOf signedFive).clean = true ∧ SpelledAs 5 signedFive ∧
      Account.ofOutput (around "sequence" signedFive) = .ok ⟨"", 0, 5, none⟩ ∧
      GivesNumber 5 (Text.Utf8.encode (Json.natural 5).compact) := by
  have clean : (documentOf signedFive).clean = true := rfl
  have cut : Text.trim " +05".toList = ['+', '0', '5'] := rfl
  have number : Text.Decimal.readBelow Text.Decimal.words64 ['+', '0', '5'] = .ok 5 := rfl
  have denotes := ((Text.Decimal.readBelow_eq_ok (by decide)).mp number).1
  have padded := cut ▸ padded_trim " +05"
  have spelled : SpelledAs 5 signedFive := .text rfl rfl padded denotes (by decide)
  have reads := numbers_both_spellings.1 signedFive clean
  have gives := (numbers_both_spellings.2 5 (by decide)).1
  exact ⟨clean, spelled, (reads.sequence _).mpr ⟨5, spelled, rfl⟩, gives⟩

end NodeHarness
