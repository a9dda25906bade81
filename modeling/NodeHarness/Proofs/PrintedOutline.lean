import NodeHarness.Proofs.DoubleRoundTrip
import NodeHarness.Proofs.TextRoundTrip

/-! The outline of printed JSON. A value's print is scanned from its first byte to its last and no
further, whatever stands behind it, and gives the outline with the same parts. -/
namespace NodeHarness

namespace JsonNumber

open Json

def numeral? : JsonNumber → Option Numeral
  | .natural n => some ⟨false, Text.Decimal.digits n, none, none⟩
  | .negative n => some ⟨true, Text.Decimal.digits (n + 1), none, none⟩
  | .floating x => x.numeral?

theorem formed_digits (negative : Bool) (n : Nat) :
    Numeral.WellFormed ⟨negative, Text.Decimal.digits n, none, none⟩ := by
  refine ⟨Text.Decimal.digits_digits n, ?_, by simp, by simp⟩
  intro c rest written
  cases n with
  | zero => simp [Text.Decimal.digits, Nat.toDigits_zero] at written
  | succ n => exact Text.Decimal.digits_first n.succ_pos _ written

theorem numeral?_formed {n : JsonNumber} {m : Numeral} (written : n.numeral? = some m) :
    m.WellFormed := by
  cases n with
  | natural n =>
    cases written
    exact formed_digits false n
  | negative n =>
    cases written
    exact formed_digits true (n + 1)
  | floating x => exact (Number.Floating.numeral?_writes written).formed

theorem print_eq (n : JsonNumber) :
    printNumber n = n.numeral?.elim nullChars Numeral.chars := by
  cases n with
  | natural n => simp [printNumber, numeral?, Numeral.chars, Numeral.unsigned,
      Numeral.fractionChars, Numeral.exponentChars]
  | negative n => simp [printNumber, numeral?, Numeral.chars, Numeral.unsigned,
      Numeral.fractionChars, Numeral.exponentChars]
  | floating x =>
    rw [printNumber, Number.Floating.chars_eq, numeral?]
    cases x.numeral? <;> rfl

end JsonNumber

namespace Json

open Text.Utf8 (encodeChars encodeChars_append encodeChars_cons)

/-! Scanning one more part of a list or an object. -/

section Parts

variable {fuel : Nat} {bytes after : List UInt8}

theorem skipSpace_cons {b : UInt8} {rest : List UInt8} (solid : isSpace b = false) :
    skipSpace (b :: rest) = b :: rest := List.dropWhile_cons_of_neg (by simp [solid])

theorem digit_ne {b x : UInt8} (digit : isDigitByte b = true) (other : isDigitByte x = false) :
    b ≠ x := by
  rintro rfl
  exact absurd (other.symm.trans digit) nofun

theorem solid_digit {b : UInt8} (digit : isDigitByte b = true) : isSpace b = false := by
  simp only [isSpace, Bool.or_eq_false_iff, decide_eq_false_iff_not]
  exact ⟨⟨⟨digit_ne digit rfl, digit_ne digit rfl⟩, digit_ne digit rfl⟩, digit_ne digit rfl⟩

theorem scanItems_last {item : Outline}
    (scanned : scanValue fuel bytes = (item, some (0x5d :: after))) :
    scanItems (fuel + 1) bytes = ([item], .closed, some after) := by
  rw [scanItems, scanned]
  rfl

theorem scanItems_more {item : Outline} {b : UInt8} {more : List UInt8} {items : List Outline}
    {finish : ListEnd} {rest : Option (List UInt8)}
    (scanned : scanValue fuel bytes = (item, some (0x2c :: b :: more)))
    (solid : isSpace b = false) (notEnd : b ≠ 0x5d)
    (later : scanItems fuel (b :: more) = (items, finish, rest)) :
    scanItems (fuel + 1) bytes = (item :: items, finish, rest) := by
  have comma : skipSpace (0x2c :: b :: more) = 0x2c :: b :: more := rfl
  rw [scanItems, scanned]
  simp only [comma, skipSpace_cons solid]
  split
  · rename_i same; cases same
  · rename_i same; exact absurd (List.cons.inj same).1 notEnd
  · rw [later]

theorem scanMembers_last {name : QuotedText} {value : Outline} {content : List UInt8}
    (named : scanText [] bytes = (name, some (0x3a :: content)))
    (scanned : scanValue fuel content = (value, some (0x7d :: after))) :
    scanMembers (fuel + 1) bytes = ([(name, value)], .closed, some after) := by
  have colon : skipSpace (0x3a :: content) = 0x3a :: content := rfl
  have brace : skipSpace (0x7d :: after) = 0x7d :: after := rfl
  rw [scanMembers, named]
  simp only [colon, scanned, brace]

theorem scanMembers_more {name : QuotedText} {value : Outline} {content more : List UInt8}
    {members : List (QuotedText × Outline)} {finish : ObjectEnd} {rest : Option (List UInt8)}
    (named : scanText [] bytes = (name, some (0x3a :: content)))
    (scanned : scanValue fuel content = (value, some (0x2c :: 0x22 :: more)))
    (later : scanMembers fuel more = (members, finish, rest)) :
    scanMembers (fuel + 1) bytes = ((name, value) :: members, finish, rest) := by
  have colon : skipSpace (0x3a :: content) = 0x3a :: content := rfl
  have comma : skipSpace (0x2c :: 0x22 :: more) = 0x2c :: 0x22 :: more := rfl
  have quote : skipSpace (0x22 :: more) = 0x22 :: more := rfl
  rw [scanMembers, named]
  simp only [colon, scanned, comma, quote, later]

theorem scanValue_text {t : QuotedText} {rest : Option (List UInt8)}
    (scanned : scanText [] bytes = (t, rest)) :
    scanValue (fuel + 1) (0x22 :: bytes) = (.text t, rest) := by
  have quote : skipSpace (0x22 :: bytes) = 0x22 :: bytes := rfl
  rw [scanValue]
  simp [quote, scanned, isDigitByte]

theorem scanValue_negative {n : NumberText} {rest : Option (List UInt8)}
    (scanned : scanNumber true bytes = (n, rest)) :
    scanValue (fuel + 1) (0x2d :: bytes) = (.number n, rest) := by
  have sign : skipSpace (0x2d :: bytes) = 0x2d :: bytes := rfl
  rw [scanValue]
  simp [sign, scanned]

theorem scanValue_digit {n : NumberText} {b : UInt8} {rest : Option (List UInt8)}
    (digit : isDigitByte b = true) (scanned : scanNumber false (b :: bytes) = (n, rest)) :
    scanValue (fuel + 1) (b :: bytes) = (.number n, rest) := by
  have other {x : UInt8} (letter : isDigitByte x = false) : b ≠ x := digit_ne digit letter
  rw [scanValue, skipSpace_cons (solid_digit digit)]
  dsimp only
  rw [if_neg (other rfl), if_neg (other rfl), if_neg (other rfl), if_neg (other rfl), if_pos digit,
    scanned]

theorem scanValue_list {b : UInt8} {items : List Outline} {finish : ListEnd}
    {rest : Option (List UInt8)} (solid : isSpace b = false) (notEnd : b ≠ 0x5d)
    (scanned : scanItems fuel (b :: bytes) = (items, finish, rest)) :
    scanValue (fuel + 1) (0x5b :: b :: bytes) = (.list items finish, rest) := by
  have bracket : skipSpace (0x5b :: b :: bytes) = 0x5b :: b :: bytes := rfl
  rw [scanValue, bracket]
  dsimp only
  rw [if_neg (by decide), if_neg (by decide), if_neg (by decide), if_neg (by decide),
    if_neg (by decide), if_neg (by decide), if_pos rfl, skipSpace_cons solid]
  split
  · rename_i same; cases same
  · rename_i same; exact absurd (List.cons.inj same).1 notEnd
  · rw [scanned]

theorem scanValue_object {members : List (QuotedText × Outline)} {finish : ObjectEnd}
    {rest : Option (List UInt8)} (scanned : scanMembers fuel bytes = (members, finish, rest)) :
    scanValue (fuel + 1) (0x7b :: 0x22 :: bytes) = (.object members finish, rest) := by
  have brace : skipSpace (0x7b :: 0x22 :: bytes) = 0x7b :: 0x22 :: bytes := rfl
  have quote : skipSpace (0x22 :: bytes) = 0x22 :: bytes := rfl
  rw [scanValue]
  simp [brace, quote, scanned, isDigitByte]

end Parts

/-! The outline of a value, as it is scanned from its print. -/

mutual

def outline : Json → Outline
  | .null => .null
  | .bool b => .bool b
  | .number n => n.numeral?.elim .null fun m => .number m.outline
  | .text s => .text ⟨escapedBytes s.toList, .closed⟩
  | .list items => .list (outlineItems items) .closed
  | .object members => .object (outlineMembers members) .closed

def outlineItems : List Json → List Outline
  | [] => []
  | item :: rest => outline item :: outlineItems rest

def outlineMembers : List (String × Json) → List (QuotedText × Outline)
  | [] => []
  | (name, value) :: rest =>
    (⟨escapedBytes name.toList, .closed⟩, outline value) :: outlineMembers rest

end

theorem encode_printText (s : String) :
    encodeChars (printText s) = 0x22 :: (escapedBytes s.toList ++ [0x22]) := by
  rw [printText, encodeChars_cons, encodeChars_append]
  rfl

theorem encode_list (items : List Json) :
    encodeChars (print (.list items)) = 0x5b :: (encodeChars (printItems items) ++ [0x5d]) := by
  rw [print, encodeChars_cons, encodeChars_append]
  rfl

theorem encode_object (members : List (String × Json)) :
    encodeChars (print (.object members)) =
      0x7b :: (encodeChars (printMembers members) ++ [0x7d]) := by
  rw [print, encodeChars_cons, encodeChars_append]
  rfl

theorem encode_items (item next : Json) (later : List Json) :
    encodeChars (printItems (item :: next :: later)) =
      encodeChars (print item) ++ 0x2c :: encodeChars (printItems (next :: later)) := by
  rw [printItems, encodeChars_append, encodeChars_cons]
  · rfl
  · nofun

theorem encode_member (name : String) (value : Json) :
    encodeChars (printMembers [(name, value)]) =
      0x22 :: (escapedBytes name.toList ++ 0x22 :: 0x3a :: encodeChars (print value)) := by
  rw [printMembers, encodeChars_append, encodeChars_cons, encode_printText,
    List.cons_append, List.append_assoc]
  rfl

theorem encode_members (name : String) (value : Json) (next : String × Json)
    (later : List (String × Json)) :
    encodeChars (printMembers ((name, value) :: next :: later)) =
      0x22 :: (escapedBytes name.toList ++ 0x22 :: 0x3a :: (encodeChars (print value) ++
        0x2c :: encodeChars (printMembers (next :: later)))) := by
  rw [printMembers, encodeChars_append, encodeChars_cons, encode_printText, encodeChars_append,
    encodeChars_cons, List.cons_append, List.append_assoc]
  · rfl
  · nofun

/-- What a printed value begins with is neither white space nor the end of a list. -/
def Begins (bytes : List UInt8) : Prop :=
  ∃ b more, bytes = b :: more ∧ isSpace b = false ∧ b ≠ 0x5d

theorem Numeral.encode_unsigned {m : Numeral} (formed : m.WellFormed) :
    ∃ b bytes, encodeChars m.unsigned = b :: bytes ∧ isDigitByte b = true := by
  obtain ⟨some, all⟩ := formed.whole
  obtain ⟨c, cs, whole⟩ := List.exists_cons_of_ne_nil some
  obtain ⟨b, bytes, digit, _⟩ := encode_digit (all c (by simp [whole]))
    (cs ++ (m.fractionChars ++ m.exponentChars))
  rw [Numeral.unsigned, whole]
  exact ⟨b, _, bytes, digit⟩

theorem Numeral.begins {m : Numeral} (formed : m.WellFormed) : Begins (encodeChars m.chars) := by
  obtain ⟨b, bytes, unsigned, digit⟩ := encode_unsigned formed
  unfold Numeral.chars
  split
  · exact ⟨0x2d, _, encodeChars_cons _ _, rfl, by decide⟩
  · exact ⟨b, bytes, unsigned, solid_digit digit, digit_ne digit rfl⟩

theorem scanValue_numeral {m : Numeral} (formed : m.WellFormed) {rest : List UInt8}
    (stops : StopsNumber rest) (fuel : Nat) :
    scanValue (fuel + 1) (encodeChars m.chars ++ rest) = (.number m.outline, some rest) := by
  obtain ⟨b, bytes, unsigned, digit⟩ := Numeral.encode_unsigned formed
  have scanned := scanNumber_numeral formed stops
  cases sign : m.negative with
  | true =>
    have signed : encodeChars m.chars = 0x2d :: encodeChars m.unsigned := by
      rw [Numeral.chars, sign]
      rfl
    rw [sign] at scanned
    rw [signed, List.cons_append, scanValue_negative scanned]
  | false =>
    have plain : encodeChars m.chars = b :: bytes := by
      rw [Numeral.chars, sign]
      exact unsigned
    rw [sign, unsigned] at scanned
    rw [plain]
    exact scanValue_digit digit scanned

theorem begins_print (v : Json) : Begins (encodeChars (print v)) := by
  cases v with
  | null => exact ⟨0x6e, _, rfl, rfl, by decide⟩
  | bool b => cases b <;> exact ⟨_, _, rfl, rfl, by decide⟩
  | number n =>
    rw [print, JsonNumber.print_eq]
    cases written : n.numeral? with
    | none => exact ⟨0x6e, _, rfl, rfl, by decide⟩
    | some m => exact Numeral.begins (JsonNumber.numeral?_formed written)
  | text s => exact ⟨0x22, _, encode_printText s, rfl, by decide⟩
  | list items => exact ⟨0x5b, _, encode_list items, rfl, by decide⟩
  | object members => exact ⟨0x7b, _, encode_object members, rfl, by decide⟩

theorem begins_items (item : Json) (later : List Json) :
    Begins (encodeChars (printItems (item :: later))) := by
  obtain ⟨b, more, first, solid, notEnd⟩ := begins_print item
  cases later with
  | nil => exact ⟨b, more, first, solid, notEnd⟩
  | cons next later =>
    have bytes := encode_items item next later
    rw [first, List.cons_append] at bytes
    exact ⟨b, _, bytes, solid, notEnd⟩

theorem stops_cons {b : UInt8} (rest : List UInt8)
    (stop : isDigitByte b = false ∧ b ≠ 0x2e ∧ b ≠ 0x65 ∧ b ≠ 0x45) : StopsNumber (b :: rest) := by
  intro c first
  cases first
  exact stop

theorem stops_comma (rest : List UInt8) : StopsNumber (0x2c :: rest) := stops_cons rest (by decide)

theorem stops_bracket (rest : List UInt8) : StopsNumber (0x5d :: rest) :=
  stops_cons rest (by decide)

theorem stops_brace (rest : List UInt8) : StopsNumber (0x7d :: rest) := stops_cons rest (by decide)

mutual

theorem scanValue_print : ∀ (v : Json) (rest : List UInt8) (fuel : Nat), StopsNumber rest →
    2 * (encodeChars (print v)).length ≤ fuel + 1 →
    scanValue fuel (encodeChars (print v) ++ rest) = (v.outline, some rest)
  | v, rest, 0, stops, enough => by
    obtain ⟨b, more, bytes, _⟩ := begins_print v
    rw [bytes, List.length_cons] at enough
    omega
  | .null, rest, fuel + 1, stops, enough => rfl
  | .bool true, rest, fuel + 1, stops, enough => rfl
  | .bool false, rest, fuel + 1, stops, enough => rfl
  | .number n, rest, fuel + 1, stops, enough => by
    rw [print, JsonNumber.print_eq, outline]
    cases written : n.numeral? with
    | none => rfl
    | some m => exact scanValue_numeral (JsonNumber.numeral?_formed written) stops fuel
  | .text s, rest, fuel + 1, stops, enough => by
    rw [print, encode_printText, List.cons_append, List.append_assoc, outline]
    exact scanValue_text (scanText_escapedBytes [] rest s.toList)
  | .list [], rest, fuel + 1, stops, enough => rfl
  | .list (item :: later), rest, fuel + 1, stops, enough => by
    rw [encode_list, List.length_cons, List.length_append, List.length_singleton] at enough
    obtain ⟨b, more, bytes, solid, notEnd⟩ := begins_items item later
    have scanned := scanItems_print (item :: later) nofun rest fuel (by omega)
    rw [encode_list, outline, List.cons_append, List.append_assoc, List.singleton_append]
    rw [bytes, List.cons_append] at scanned ⊢
    exact scanValue_list solid notEnd scanned
  | .object [], rest, fuel + 1, stops, enough => rfl
  | .object ((name, value) :: later), rest, fuel + 1, stops, enough => by
    rw [encode_object, List.length_cons, List.length_append, List.length_singleton] at enough
    obtain ⟨tail, bytes, scanned⟩ :=
      scanMembers_print ((name, value) :: later) nofun rest fuel (by omega)
    rw [encode_object, outline, bytes]
    simp only [List.cons_append, List.append_assoc, List.nil_append]
    exact scanValue_object scanned

theorem scanItems_print : ∀ (items : List Json), items ≠ [] → ∀ (rest : List UInt8) (fuel : Nat),
    2 * (encodeChars (printItems items)).length ≤ fuel →
    scanItems fuel (encodeChars (printItems items) ++ 0x5d :: rest) =
      (outlineItems items, .closed, some rest)
  | [], empty, _, _, _ => absurd rfl empty
  | item :: later, _, rest, 0, enough => by
    obtain ⟨b, more, bytes, _⟩ := begins_items item later
    rw [bytes, List.length_cons] at enough
    omega
  | [item], _, rest, fuel + 1, enough => by
    rw [printItems] at enough ⊢
    exact scanItems_last (scanValue_print item _ fuel (stops_bracket rest) enough)
  | item :: next :: later, _, rest, fuel + 1, enough => by
    obtain ⟨b, more, bytes, solid, notEnd⟩ := begins_items next later
    rw [encode_items, List.length_append, List.length_cons] at enough
    have scanned := scanItems_print (next :: later) nofun rest fuel (by omega)
    have first := scanValue_print item _ fuel
      (stops_comma (encodeChars (printItems (next :: later)) ++ 0x5d :: rest)) (by omega)
    rw [encode_items, List.append_assoc, List.cons_append, outlineItems]
    rw [bytes, List.cons_append] at scanned first ⊢
    exact scanItems_more first solid notEnd scanned

theorem scanMembers_print : ∀ (members : List (String × Json)), members ≠ [] →
    ∀ (rest : List UInt8) (fuel : Nat),
    2 * (encodeChars (printMembers members)).length ≤ fuel →
    ∃ tail, encodeChars (printMembers members) = 0x22 :: tail ∧
      scanMembers fuel (tail ++ 0x7d :: rest) = (outlineMembers members, .closed, some rest)
  | [], empty, _, _, _ => absurd rfl empty
  | [(name, value)], _, rest, fuel, enough => by
    rw [encode_member, List.length_cons, List.length_append, List.length_cons,
      List.length_cons] at enough
    obtain ⟨fuel, rfl⟩ : ∃ less, fuel = less + 1 := ⟨fuel - 1, by omega⟩
    refine ⟨_, encode_member name value, ?_⟩
    have content := scanValue_print value _ fuel (stops_brace rest) (by omega)
    simp only [List.append_assoc, List.cons_append]
    exact scanMembers_last (scanText_escapedBytes [] _ name.toList) content
  | (name, value) :: (other, next) :: later, _, rest, fuel, enough => by
    rw [encode_members, List.length_cons, List.length_append, List.length_cons, List.length_cons,
      List.length_append, List.length_cons] at enough
    obtain ⟨fuel, rfl⟩ : ∃ less, fuel = less + 1 := ⟨fuel - 1, by omega⟩
    obtain ⟨tail, bytes, scanned⟩ :=
      scanMembers_print ((other, next) :: later) nofun rest fuel (by omega)
    refine ⟨_, encode_members name value (other, next) later, ?_⟩
    have content := scanValue_print value _ fuel
      (stops_comma (0x22 :: (tail ++ 0x7d :: rest))) (by omega)
    rw [bytes]
    simp only [List.append_assoc, List.cons_append]
    exact scanMembers_more (scanText_escapedBytes [] _ name.toList) content scanned

end

end Json
end NodeHarness
