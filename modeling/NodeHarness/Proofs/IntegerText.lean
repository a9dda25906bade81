import NodeHarness.Proofs.PrintedOutline

/-! The text of a plain integer. A number is scanned without a sign, a fraction or an exponent
exactly if nothing but digits is written, with no zero in front of others. -/
namespace NodeHarness.Json

open Text.Decimal (Digits)
open Text.Utf8 (encodeChars encodeChars_cons)

/-- With no digits a number breaks off. -/
theorem broken_or {n t : NumberText} {bytes rest after : List UInt8} {broken : Prop}
    [Decidable broken]
    (scanned : (if broken then brokenNumber n bytes else (n, some after)) = (t, some rest)) :
    t = n := by
  split at scanned
  · cases congrArg Prod.snd scanned
  · cases scanned
    rfl

/-- Either nothing is read, or an exponent is. -/
theorem scanExponent_cases {n t : NumberText} {bytes rest : List UInt8}
    (scanned : scanExponent n bytes = (t, some rest)) :
    t = n ∧ rest = bytes ∨ t.fraction = n.fraction ∧ t.exponent ≠ none := by
  unfold scanExponent at scanned
  split at scanned
  · cases scanned
    exact .inl ⟨rfl, rfl⟩
  · split at scanned
    · dsimp only at scanned
      right
      split at scanned <;> rw [broken_or scanned] <;> exact ⟨rfl, nofun⟩
    · cases scanned
      exact .inl ⟨rfl, rfl⟩

/-- Either nothing is read, or a fraction or an exponent is. -/
theorem scanFraction_cases {n t : NumberText} {bytes rest : List UInt8}
    (scanned : scanFraction n bytes = (t, some rest)) :
    t = n ∧ rest = bytes ∨ t.fraction ≠ none ∨ t.exponent ≠ none := by
  unfold scanFraction at scanned
  split at scanned
  · dsimp only at scanned
    right
    left
    split at scanned
    · cases congrArg Prod.snd scanned
    · rcases scanExponent_cases scanned with ⟨rfl, _⟩ | ⟨kept, _⟩
      · nofun
      · rw [kept]
        nofun
  · rcases scanExponent_cases scanned with same | ⟨_, exponent⟩
    · exact .inl same
    · exact .inr (.inr exponent)

theorem digitChar_bytes : ∀ n < 10, (Nat.digitChar n).isDigit = true ∧
    String.utf8EncodeChar (Nat.digitChar n) = [UInt8.ofNat (0x30 + n)] ∧
    Text.Decimal.digitValue (Nat.digitChar n) = n := by decide

/-- A byte that is a digit is one character. -/
theorem decode_digit {b : UInt8} (digit : isDigitByte b = true) :
    ∃ c : Char, c.isDigit = true ∧ String.utf8EncodeChar c = [b] ∧
      Text.Decimal.digitValue c = b.toNat - 0x30 := by
  have bounds : 48 ≤ b.toNat ∧ b.toNat ≤ 57 := by
    simpa [isDigitByte, UInt8.le_iff_toNat_le] using digit
  obtain ⟨character, bytes, value⟩ := digitChar_bytes (b.toNat - 0x30) (by omega)
  have same : UInt8.ofNat (0x30 + (b.toNat - 0x30)) = b := by
    rw [Nat.add_sub_of_le bounds.1]
    exact UInt8.ofNat_toNat
  rw [same] at bytes
  exact ⟨_, character, bytes, value⟩

/-- The digits at the front of the input are characters. -/
theorem takeDigits_chars (bytes : List UInt8) :
    ∃ cs, bytes = encodeChars cs ++ (takeDigits bytes).2 ∧ (∀ c ∈ cs, c.isDigit = true) ∧
      digitValues cs = (takeDigits bytes).1 := by
  induction bytes with
  | nil => exact ⟨[], rfl, by simp, rfl⟩
  | cons b bytes ih =>
    cases digit : isDigitByte b with
    | false =>
      have none : takeDigits (b :: bytes) = ([], b :: bytes) := by
        apply takeDigits_stop
        intro c first
        cases first
        exact digit
      rw [none]
      exact ⟨[], rfl, by simp, rfl⟩
    | true =>
      have more : takeDigits (b :: bytes) =
          ((b.toNat - 0x30) :: (takeDigits bytes).1, (takeDigits bytes).2) := by
        simp [takeDigits, digit]
      obtain ⟨c, character, byte, value⟩ := decode_digit digit
      obtain ⟨cs, split, digits, values⟩ := ih
      refine ⟨c :: cs, ?_, List.forall_mem_cons.mpr ⟨character, digits⟩, ?_⟩
      · rw [more, encodeChars_cons, byte, List.append_assoc, ← split]
        rfl
      · rw [more, ← value, ← values]
        rfl

/-- Digits with these values, and no zero in front of others. -/
structure PlainDigits (cs : List Char) (whole : List Nat) : Prop where
  digits : Digits cs
  leading : ∀ c rest, cs ≠ '0' :: c :: rest
  values : digitValues cs = whole

/-- A number that comes out whole and without a sign has been read from digits only. -/
theorem scanNumber_plain {bytes rest : List UInt8} {negative : Bool} {whole : List Nat}
    (scanned : scanNumber negative bytes = (⟨false, whole, none, none, .complete⟩, some rest)) :
    negative = false ∧ ∃ cs, bytes = encodeChars cs ++ rest ∧ PlainDigits cs whole := by
  obtain ⟨cs, split, digits, values⟩ := takeDigits_chars bytes
  unfold scanNumber at scanned
  dsimp only at scanned
  rw [← values] at scanned
  split at scanned
  · cases congrArg Prod.snd scanned
  · cases congrArg Prod.snd scanned
  · rename_i some leading
    rcases scanFraction_cases scanned with ⟨same, rfl⟩ | fraction | exponent
    · refine ⟨congrArg NumberText.negative same.symm, cs, split, ⟨?_, digits⟩, ?_,
        congrArg NumberText.whole same.symm⟩
      · rintro rfl
        exact some rfl
      · rintro c rest rfl
        exact leading _ _ rfl
    · exact absurd rfl fraction
    · exact absurd rfl exponent

theorem skipSpace_front {front : List UInt8} (space : ∀ b ∈ front, isSpace b = true)
    (bytes : List UInt8) : skipSpace (front ++ bytes) = skipSpace bytes := by
  rw [skipSpace, List.dropWhile_append_of_pos space]
  rfl

theorem scanWord_number {value : Outline} {word bytes rest : List UInt8} {t : NumberText}
    (scanned : scanWord value word bytes = (.number t, some rest)) : value = .number t := by
  induction word generalizing bytes with
  | nil =>
    cases scanned
    rfl
  | cons expected word ih =>
    cases bytes with
    | nil => cases scanned
    | cons b bytes =>
      rw [scanWord] at scanned
      split at scanned
      · exact ih scanned
      · cases scanned

theorem scanValue_number {fuel : Nat} {bytes rest : List UInt8} {t : NumberText}
    (scanned : scanValue fuel bytes = (.number t, some rest)) :
    ∃ b more, skipSpace bytes = b :: more ∧
      (scanNumber true more = (t, some rest) ∨ scanNumber false (b :: more) = (t, some rest)) := by
  cases fuel with
  | zero =>
    rw [scanValue] at scanned
    cases scanned
  | succ fuel =>
    rw [scanValue] at scanned
    split at scanned
    · cases scanned
    · rename_i b more front
      refine ⟨b, more, front, ?_⟩
      split at scanned
      · cases scanWord_number scanned
      split at scanned
      · cases scanWord_number scanned
      split at scanned
      · cases scanWord_number scanned
      split at scanned
      · obtain ⟨same, after⟩ := Prod.mk.inj scanned
        exact .inl (Prod.ext (Outline.number.inj same) after)
      split at scanned
      · obtain ⟨same, after⟩ := Prod.mk.inj scanned
        exact .inr (Prod.ext (Outline.number.inj same) after)
      split at scanned
      · cases scanned
      split at scanned
      · split at scanned <;> cases scanned
      split at scanned
      · split at scanned <;> cases scanned
      · cases scanned

/-- White space, such digits, and white space again. -/
def IntegerText (bytes : List UInt8) (whole : List Nat) : Prop :=
  ∃ front cs back, bytes = front ++ (encodeChars cs ++ back) ∧
    (∀ b ∈ front, isSpace b = true) ∧ (∀ b ∈ back, isSpace b = true) ∧ PlainDigits cs whole

theorem stops_space {rest : List UInt8} (space : ∀ b ∈ rest, isSpace b = true) :
    StopsNumber rest := by
  intro b first
  have here := space b (List.mem_of_mem_head? first)
  simp only [isSpace, Bool.or_eq_true, decide_eq_true_eq] at here
  rcases here with ((rfl | rfl) | rfl) | rfl <;> decide

theorem scanValue_front {front : List UInt8} (space : ∀ b ∈ front, isSpace b = true)
    (fuel : Nat) (bytes : List UInt8) :
    scanValue fuel (front ++ bytes) = scanValue fuel bytes := by
  cases fuel with
  | zero => rw [scanValue, scanValue]
  | succ fuel => rw [scanValue, scanValue, skipSpace_front space]

/-- A whole text is a value with white space behind it. -/
theorem documentOf_clean {bytes : List UInt8} {o : Outline} :
    documentOf bytes = ⟨o, true⟩ ↔
      ∃ rest, outlineOf bytes = (o, some rest) ∧ ∀ b ∈ rest, isSpace b = true := by
  obtain ⟨⟨root, after⟩, scanned⟩ : ∃ scan, outlineOf bytes = scan := ⟨_, rfl⟩
  rw [documentOf, scanned]
  constructor
  · intro read
    obtain ⟨rfl, clean⟩ := Document.mk.inj read
    split at clean
    · cases clean
    · rename_i rest
      exact ⟨rest, rfl, List.dropWhile_eq_nil_iff.mp (List.isEmpty_iff.mp clean)⟩
  · rintro ⟨rest, same, space⟩
    cases same
    have ended : skipSpace rest = [] := List.dropWhile_eq_nil_iff.mpr space
    simp [ended]

/-- A text is a plain integer exactly if it is written as one. -/
theorem documentOf_integer {bytes : List UInt8} {whole : List Nat} :
    documentOf bytes = ⟨.number ⟨false, whole, none, none, .complete⟩, true⟩ ↔
      IntegerText bytes whole := by
  rw [documentOf_clean]
  constructor
  · rintro ⟨rest, scanned, behind⟩
    obtain ⟨b, more, solid, found⟩ := scanValue_number scanned
    have split : bytes = bytes.takeWhile isSpace ++ (b :: more) := by
      rw [← solid, skipSpace, List.takeWhile_append_dropWhile]
    have before : ∀ b ∈ bytes.takeWhile isSpace, isSpace b = true :=
      fun b member => List.mem_takeWhile_imp member
    rcases found with negative | unsigned
    · cases (scanNumber_plain negative).1
    · obtain ⟨_, cs, digits, plain⟩ := scanNumber_plain unsigned
      rw [digits] at split
      exact ⟨_, cs, rest, split, before, behind, plain⟩
  · rintro ⟨front, cs, back, rfl, before, behind, plain⟩
    have formed : Numeral.WellFormed ⟨false, cs, none, none⟩ :=
      ⟨plain.digits, plain.leading, by simp, by simp⟩
    have scanned := scanValue_numeral formed (stops_space behind)
    have chars : Numeral.chars ⟨false, cs, none, none⟩ = cs := by
      simp [Numeral.chars, Numeral.unsigned, Numeral.fractionChars, Numeral.exponentChars]
    refine ⟨back, ?_, behind⟩
    rw [outlineOf, scanValue_front before, ← plain.values]
    rw [chars] at scanned
    exact scanned _

end NodeHarness.Json
