import NodeHarness.Proofs.FieldHistory
import NodeHarness.Proofs.JsonRoundTrip
import NodeHarness.Proofs.MemberOrder
import NodeHarness.Proofs.Utf8Order
import NodeHarness.Telemetry.Record

/-! The object that stands for a set of fields, as a text. Without doubles no two values share a
text, and the members of the object are in ascending order, so the text tells the value of every
name, and nothing else: not the order in which the names were written. -/
namespace NodeHarness

namespace Json

/-- There are no doubles in the value. -/
def NoDoubles (v : Json) : Prop := ∀ n ∈ v.numbers, ∀ x, n ≠ .floating x

theorem natural_ne_floating (n : Nat) (x : Number.Floating) :
    JsonNumber.natural n ≠ .floating x := by
  intro same
  cases same

theorem negative_ne_floating (n : Nat) (x : Number.Floating) :
    JsonNumber.negative n ≠ .floating x := by
  intro same
  cases same

instance (n : JsonNumber) : Decidable (∀ x, n ≠ .floating x) :=
  n.casesOn (fun n => .isTrue (natural_ne_floating n)) (fun n => .isTrue (negative_ne_floating n))
    fun x => .isFalse fun others => others x rfl

instance (v : Json) : Decidable v.NoDoubles :=
  inferInstanceAs (Decidable (∀ n ∈ v.numbers, ∀ x, n ≠ .floating x))

namespace Outline

/-- The integer that is spelled by the digits before a point. -/
def wholeNumber (n : NumberText) : JsonNumber :=
  let digits := n.whole.foldl (fun n d => n * 10 + d) 0
  if n.negative then .negative (digits - 1) else .natural digits

mutual

/-- The value that an outline stands for, when its numbers are integers of any size. -/
def unread : Outline → Json
  | .bool b => .bool b
  | .number n => .number (wholeNumber n)
  | .text t => .text ((t.decode).toOption.getD "")
  | .list items _ => .list (unreadItems items)
  | .object members _ => .object (unreadMembers members)
  | _ => .null

def unreadItems : List Outline → List Json
  | [] => []
  | item :: rest => unread item :: unreadItems rest

def unreadMembers : List (QuotedText × Outline) → List (String × Json)
  | [] => []
  | (name, content) :: rest =>
    ((name.decode).toOption.getD "", unread content) :: unreadMembers rest

end

end Outline

theorem unread_number {n : JsonNumber} (integer : ∀ x, n ≠ .floating x) :
    (Json.number n).outline.unread = .number n := by
  have value (k : Nat) :
      (digitValues (Text.Decimal.digits k)).foldl (fun n d => n * 10 + d) 0 = k := by
    rw [foldl_digitValues, Text.Decimal.value_digits]
  cases n with
  | natural n =>
    change Json.number (.natural (List.foldl _ 0 (digitValues (Text.Decimal.digits n)))) = _
    rw [value]
  | negative n =>
    change
      Json.number (.negative (List.foldl _ 0 (digitValues (Text.Decimal.digits (n + 1))) - 1)) = _
    rw [value, Nat.add_sub_cancel]
  | floating x => exact absurd rfl (integer x)

theorem unread_text (s : String) :
    ((QuotedText.decode ⟨escapedBytes s.toList, .closed⟩).toOption.getD "") = s := by
  rw [decode_escapedBytes]
  rfl

mutual

theorem unread_outline : ∀ (v : Json), v.NoDoubles → v.outline.unread = v
  | .null, _ => rfl
  | .bool _, _ => rfl
  | .number n, noDoubles => unread_number (noDoubles n (by simp [numbers]))
  | .text s, _ => by rw [outline, Outline.unread, unread_text]
  | .list items, noDoubles => by rw [outline, Outline.unread, unread_outlineItems items noDoubles]
  | .object members, noDoubles => by
    rw [outline, Outline.unread, unread_outlineMembers members noDoubles]

theorem unread_outlineItems : ∀ (items : List Json),
    (∀ n ∈ numbersItems items, ∀ x, n ≠ .floating x) →
    Outline.unreadItems (outlineItems items) = items
  | [], _ => rfl
  | item :: rest, noDoubles => by
    rw [outlineItems, Outline.unreadItems,
      unread_outline item fun n member => noDoubles n (List.mem_append_left _ member),
      unread_outlineItems rest fun n member => noDoubles n (List.mem_append_right _ member)]

theorem unread_outlineMembers : ∀ (members : List (String × Json)),
    (∀ n ∈ numbersMembers members, ∀ x, n ≠ .floating x) →
    Outline.unreadMembers (outlineMembers members) = members
  | [], _ => rfl
  | (name, value) :: rest, noDoubles => by
    rw [outlineMembers, Outline.unreadMembers, unread_text,
      unread_outline value fun n member => noDoubles n (List.mem_append_left _ member),
      unread_outlineMembers rest fun n member => noDoubles n (List.mem_append_right _ member)]

end

/-- Without doubles no two values share a text. -/
theorem compact_inj {v w : Json} (left : v.NoDoubles) (right : w.NoDoubles)
    (same : v.compact = w.compact) : v = w := by
  have outlines : v.outline = w.outline := by
    have scanned := documentOf_compact v
    rw [same, documentOf_compact] at scanned
    exact (congrArg Document.root scanned).symm
  rw [← unread_outline v left, outlines, unread_outline w right]

theorem mem_numbersMembers {n : JsonNumber} {members : List (String × Json)} :
    n ∈ numbersMembers members ↔ ∃ member ∈ members, n ∈ member.2.numbers := by
  induction members with
  | nil => simp [numbersMembers]
  | cons member rest ih =>
    obtain ⟨name, v⟩ := member
    simp [numbersMembers, ih]

end Json

namespace Fields

/-- There are no doubles in the values. -/
def NoDoubles (fields : Fields) : Prop := ∀ entry ∈ fields.entries, entry.2.NoDoubles

instance (fields : Fields) : Decidable fields.NoDoubles :=
  inferInstanceAs (Decidable (∀ entry ∈ fields.entries, entry.2.NoDoubles))

theorem NoDoubles.toJson {fields : Fields} (noDoubles : fields.NoDoubles) :
    fields.toJson.NoDoubles := by
  intro n member
  rw [Fields.toJson, Json.numbers, Json.mem_numbersMembers] at member
  obtain ⟨entry, sorted, here⟩ := member
  exact noDoubles entry (Json.mem_of_mem_sortMembers sorted) n here

theorem toJson_eq_iff {a b : Fields} :
    a.toJson = b.toJson ↔ ∀ name, a.get? name = b.get? name := by
  rw [toJson, toJson, Json.object.injEq, Json.sortMembers_eq_iff]
  simp only [lastWritten?_entries]

theorem compact_eq_iff {a b : Fields} (left : a.NoDoubles) (right : b.NoDoubles) :
    a.toJson.compact = b.toJson.compact ↔ a.toJson = b.toJson :=
  ⟨Json.compact_inj left.toJson right.toJson, congrArg Json.compact⟩

end Fields

theorem Payload.floatingJson_canonical (x : Option Number.Floating) :
    (floatingJson x).canonical = floatingJson x := by
  cases x with
  | none => rfl
  | some x =>
    rw [floatingJson]
    split <;> rfl

theorem Payload.stored_canonical (p : Payload) : p.stored.canonical = p.stored := by
  cases p with
  | json v => exact Json.canonical_canonical v
  | integer i =>
    rw [stored, toJson]
    split
    · rename_i fits
      split at fits <;> cases fits
      rfl
    · rfl
  | double x => exact floatingJson_canonical x
  | single x => exact floatingJson_canonical _
  | byBytes entries => cases entries <;> rfl
  | listByBytes entries => cases entries <;> rfl
  | byInteger entries => exact Json.canonical_canonical _
  | byBool entries => exact Json.canonical_canonical _
  | byUnit s => rfl
  | byOption keys =>
    rw [stored, toJson]
    split
    · rename_i named
      split at named <;> cases named
      exact Json.canonical_canonical _
    · rfl

/-- Nothing is written in another form than the canonical one. -/
theorem Fields.History.canonical_writes (h : Fields.History) :
    ∀ write ∈ h.writes, write.2.canonical = write.2 := by
  induction h with
  | empty => exact fun _ written => by cases written
  | insert before name data ih =>
    exact List.forall_mem_append.mpr ⟨ih, List.forall_mem_singleton.mpr data.stored_canonical⟩
  | display before name text ih =>
    exact List.forall_mem_append.mpr ⟨ih, List.forall_mem_singleton.mpr rfl⟩
  | merge before other ihBefore ihOther => exact List.forall_mem_append.mpr ⟨ihBefore, ihOther⟩
  | collect members =>
    rw [writes, Json.canonicalMembers_eq]
    intro write written
    obtain ⟨member, _, rfl⟩ := List.mem_map.mp written
    exact Json.canonical_canonical member.2

theorem Fields.History.toJson_canonical (h : Fields.History) :
    h.build.toJson.canonical = h.build.toJson := by
  refine Json.canonical_object fun entry member => ?_
  have value := get?_of_mem member
  rw [get?_build] at value
  exact h.canonical_writes _ (Json.mem_of_lastWritten? value)

/-- Objects in a canonical value have their members in the order of the bytes of the names. -/
theorem Json.sorted_of_canonical {v : Json} (canonical : v.canonical = v) {path : List Json.Place}
    {members : List (String × Json)} (found : v.part? path = some (.object members)) :
    members.Pairwise fun m n => Text.Utf8.encode m.1 < Text.Utf8.encode n.1 := by
  rw [← canonical, part?_canonical, Option.map_eq_some_iff] at found
  obtain ⟨part, _, shown⟩ := found
  cases part with
  | object ms =>
    cases shown
    exact (sortMembers_ascending _).imp Text.Utf8.encode_lt
  | _ => cases shown

/-- What the text of a set's object tells. -/
structure Fields.Identified (a b : Fields) : Prop where
  /-- The texts are the same exactly if every name has the same value, or none, in both. -/
  values : a.toJson.compact = b.toJson.compact ↔ ∀ name, a.get? name = b.get? name
  /-- The order of members does not count at any depth: only what stands at the end of a path. -/
  parts : a.toJson.compact = b.toJson.compact ↔ a.toJson.Agree b.toJson
  /-- Documents are taken for the same value if they agree. -/
  documents : ∀ v w : Json, (Payload.json v).stored = (Payload.json w).stored ↔ v.Agree w
  /-- In objects of any depth the names are in the order of their bytes. -/
  sorted : ∀ path members, a.toJson.part? path = some (.object members) →
    members.Pairwise fun m n => Text.Utf8.encode m.1 < Text.Utf8.encode n.1
  /-- Records that say the same are told apart by the values, and by nothing else. -/
  records : ∀ level message fatal,
    LogRecord.ofNote? (.record level a.toJson message fatal) =
      LogRecord.ofNote? (.record level b.toJson message fatal) ↔
    ∀ name, a.get? name = b.get? name

/-- The text of a set's object stands for the map from names to values, whatever way the set was
built. -/
theorem payload_identifies (a b : Fields.History) (left : a.build.NoDoubles)
    (right : b.build.NoDoubles) : Fields.Identified a.build b.build where
  values := (Fields.compact_eq_iff left right).trans Fields.toJson_eq_iff
  parts := by
    rw [Fields.compact_eq_iff left right, ← Json.canonical_eq_iff, a.toJson_canonical,
      b.toJson_canonical]
  documents _ _ := Json.canonical_eq_iff
  sorted _ _ found := Json.sorted_of_canonical a.toJson_canonical found
  records level message fatal := by
    rw [← Fields.toJson_eq_iff, ← Fields.compact_eq_iff left right]
    simp only [LogRecord.ofNote?, Option.some.injEq, LogRecord.mk.injEq, true_and, and_true]

section Sample

open Fields (History)

/-- A user, then an amount that is a text. -/
def displayedSample : History :=
  (History.empty.insert "user" (.json (.object [("name", .text "x"), ("age", .natural 5)]))).display
    "amount" "5"

/-- The same amount, and the same user with the members the other way round, from another set. -/
def mergedSample : History :=
  (History.empty.display "amount" "5").merge
    (.collect [("user", .object [("age", .natural 5), ("name", .text "x")])])

/-- The amount as a number, which is displayed as the text is. -/
def countedSample : History := mergedSample.insert "amount" (.integer 5)

/-- The texts of the first two are the same, so no name has different values in them; the number
is not the text. -/
theorem samples_identified :
    displayedSample.build.NoDoubles ∧ mergedSample.build.NoDoubles ∧
      countedSample.build.NoDoubles ∧
      (∀ name, displayedSample.build.get? name = mergedSample.build.get? name) ∧
      displayedSample.build.toJson.compact ≠ countedSample.build.toJson.compact := by
  have displayed : displayedSample.build.NoDoubles := by decide
  have merged : mergedSample.build.NoDoubles := by decide
  have counted : countedSample.build.NoDoubles := by decide
  refine ⟨displayed, merged, counted, ?_, fun same => ?_⟩
  · exact (payload_identifies displayedSample mergedSample displayed merged).values.mp (by decide)
  · have amounts := (payload_identifies displayedSample countedSample displayed counted).values.mp
      same "amount"
    cases amounts

end Sample

end NodeHarness
