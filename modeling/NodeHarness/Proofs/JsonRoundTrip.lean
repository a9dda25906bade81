import NodeHarness.Proofs.PrintedOutline

/-! Printed JSON is read back. All that can come out differently is a double, so a value without
doubles comes back as it was. -/
namespace NodeHarness

open Json

namespace JsonNumber

/-- Integers are those of 64 bits, with or without sign. -/
def Sized : JsonNumber → Prop
  | .natural n => n < Text.Decimal.words64
  | .negative n => n < Text.Decimal.words64 / 2
  | .floating _ => True

instance : DecidablePred Sized
  | .natural n => inferInstanceAs (Decidable (n < Text.Decimal.words64))
  | .negative n => inferInstanceAs (Decidable (n < Text.Decimal.words64 / 2))
  | .floating _ => inferInstanceAs (Decidable True)

/-- The value that is read where a number was printed; an infinity is printed as null. -/
def reread (n : JsonNumber) : Json :=
  match n.numeral? with
  | none => .null
  | some m => .number ((m.outline.value).toOption.getD n)

theorem value_integer {n : JsonNumber} (sized : n.Sized) (integer : ∀ x, n ≠ .floating x) :
    ∃ m, n.numeral? = some m ∧ m.outline.value = .ok n := by
  cases n with
  | natural n =>
    exact ⟨_, rfl, Numeral.value_natural (Text.Decimal.value_digits n) sized⟩
  | negative n => exact ⟨_, rfl, Numeral.value_negative (Text.Decimal.value_digits (n + 1)) sized⟩
  | floating x => exact absurd rfl (integer x)

theorem value_numeral {n : JsonNumber} {m : Numeral} (sized : n.Sized)
    (written : n.numeral? = some m) : ∃ k, m.outline.value = .ok k := by
  by_cases integer : ∀ x, n ≠ .floating x
  · obtain ⟨_, same, read⟩ := value_integer sized integer
    cases written.symm.trans same
    exact ⟨n, read⟩
  · simp only [ne_eq, not_forall, not_not] at integer
    obtain ⟨x, rfl⟩ := integer
    obtain ⟨word, read⟩ := (Number.Floating.numeral?_writes written).value
    exact ⟨_, read⟩

theorem reread_integer {n : JsonNumber} (sized : n.Sized) (integer : ∀ x, n ≠ .floating x) :
    n.reread = .number n := by
  obtain ⟨m, written, read⟩ := value_integer sized integer
  rw [reread, written]
  dsimp only
  rw [read]
  rfl

end JsonNumber

namespace Json

mutual

/-- All numbers of a value. -/
def numbers : Json → List JsonNumber
  | .number n => [n]
  | .list items => numbersItems items
  | .object members => numbersMembers members
  | _ => []

def numbersItems : List Json → List JsonNumber
  | [] => []
  | item :: rest => numbers item ++ numbersItems rest

def numbersMembers : List (String × Json) → List JsonNumber
  | [] => []
  | (_, value) :: rest => numbers value ++ numbersMembers rest

end

mutual

/-- How many lists and objects are inside each other. -/
def nesting : Json → Nat
  | .list items => nestingItems items + 1
  | .object members => nestingMembers members + 1
  | _ => 0

def nestingItems : List Json → Nat
  | [] => 0
  | item :: rest => max (nesting item) (nestingItems rest)

def nestingMembers : List (String × Json) → Nat
  | [] => 0
  | (_, value) :: rest => max (nesting value) (nestingMembers rest)

end

mutual

/-- The value that is read from the print of a value. -/
def reread : Json → Json
  | .number n => n.reread
  | .list items => .list (rereadItems items)
  | .object members => .object (rereadMembers members)
  | v => v

def rereadItems : List Json → List Json
  | [] => []
  | item :: rest => reread item :: rereadItems rest

def rereadMembers : List (String × Json) → List (String × Json)
  | [] => []
  | (name, value) :: rest => (name, reread value) :: rereadMembers rest

end

/-- There are no doubles in the value. -/
def Exact (v : Json) : Prop := ∀ n ∈ v.numbers, n.Sized ∧ ∀ x, n ≠ .floating x

mutual

theorem reread_exact : ∀ (v : Json), v.Exact → v.reread = v
  | .null, _ => rfl
  | .bool _, _ => rfl
  | .text _, _ => rfl
  | .number n, exact => by
    obtain ⟨sized, integer⟩ := exact n (by simp [numbers])
    exact JsonNumber.reread_integer sized integer
  | .list items, exact => by rw [reread, rereadItems_exact items exact]
  | .object members, exact => by rw [reread, rereadMembers_exact members exact]

theorem rereadItems_exact : ∀ (items : List Json),
    (∀ n ∈ numbersItems items, n.Sized ∧ ∀ x, n ≠ .floating x) → rereadItems items = items
  | [], _ => rfl
  | item :: rest, exact => by
    rw [rereadItems, reread_exact item fun n member => exact n (List.mem_append_left _ member),
      rereadItems_exact rest fun n member => exact n (List.mem_append_right _ member)]

theorem rereadMembers_exact : ∀ (members : List (String × Json)),
    (∀ n ∈ numbersMembers members, n.Sized ∧ ∀ x, n ≠ .floating x) →
    rereadMembers members = members
  | [], _ => rfl
  | (name, value) :: rest, exact => by
    rw [rereadMembers, reread_exact value fun n member => exact n (List.mem_append_left _ member),
      rereadMembers_exact rest fun n member => exact n (List.mem_append_right _ member)]

end

theorem value_number {n : JsonNumber} (sized : n.Sized) (depth : Nat) :
    (Json.number n).outline.value depth = .ok n.reread := by
  rw [outline, JsonNumber.reread]
  cases written : n.numeral? with
  | none => rfl
  | some m =>
    obtain ⟨k, read⟩ := JsonNumber.value_numeral sized written
    dsimp only [Option.elim]
    rw [Outline.value, read]
    rfl

mutual

theorem value_outline : ∀ (v : Json) {depth : Nat}, v.nesting < depth →
    (∀ n ∈ v.numbers, n.Sized) → v.outline.value depth = .ok v.reread
  | .null, _, _, _ => rfl
  | .bool _, _, _, _ => rfl
  | .number n, depth, _, sized => value_number (sized n (by simp [numbers])) depth
  | .text s, depth, _, _ => by
    rw [outline, Outline.value, decode_escapedBytes]
    rfl
  | .list items, depth, shallow, sized => by
    rw [nesting] at shallow
    rw [outline, Outline.value, if_neg (by omega),
      valueItems_outline items (Nat.lt_sub_of_add_lt shallow) sized]
    rfl
  | .object members, depth, shallow, sized => by
    rw [nesting] at shallow
    rw [outline, Outline.value, if_neg (by omega),
      valueMembers_outline members (Nat.lt_sub_of_add_lt shallow) sized]
    rfl

theorem valueItems_outline : ∀ (items : List Json) {depth : Nat}, nestingItems items < depth →
    (∀ n ∈ numbersItems items, n.Sized) →
    Outline.valueItems depth (outlineItems items) = .ok (rereadItems items)
  | [], _, _, _ => rfl
  | item :: rest, depth, shallow, sized => by
    rw [nestingItems, Nat.max_lt] at shallow
    rw [outlineItems, Outline.valueItems,
      value_outline item shallow.1 fun n member => sized n (List.mem_append_left _ member),
      valueItems_outline rest shallow.2 fun n member => sized n (List.mem_append_right _ member)]
    rfl

theorem valueMembers_outline : ∀ (members : List (String × Json)) {depth : Nat},
    nestingMembers members < depth → (∀ n ∈ numbersMembers members, n.Sized) →
    Outline.valueMembers depth (outlineMembers members) = .ok (rereadMembers members)
  | [], _, _, _ => rfl
  | (name, value) :: rest, depth, shallow, sized => by
    rw [nestingMembers, Nat.max_lt] at shallow
    rw [outlineMembers, Outline.valueMembers, decode_escapedBytes,
      value_outline value shallow.1 fun n member => sized n (List.mem_append_left _ member),
      valueMembers_outline rest shallow.2 fun n member => sized n (List.mem_append_right _ member)]
    rfl

end

theorem documentOf_compact (v : Json) :
    documentOf (Text.Utf8.encode v.compact) = ⟨v.outline, true⟩ := by
  have bytes : Text.Utf8.encode v.compact = Text.Utf8.encodeChars (print v) := by
    rw [Text.Utf8.encode, compact, String.toList_ofList]
  have scanned := scanValue_print v [] (2 * (Text.Utf8.encodeChars (print v)).length + 2) stops_nil
    (by omega)
  rw [List.append_nil] at scanned
  rw [documentOf, outlineOf, bytes, scanned]
  rfl

/-- What is read from a print. -/
theorem ofBytes_compact {v : Json} (shallow : v.nesting < depthLimit)
    (sized : ∀ n ∈ v.numbers, n.Sized) : ofBytes (Text.Utf8.encode v.compact) = .ok v.reread := by
  rw [ofBytes, documentOf_compact, Document.value, Document.decode]
  simp only [value_outline v shallow sized, if_true]

end Json

end NodeHarness
