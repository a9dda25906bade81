import NodeHarness.Json.Printer
import NodeHarness.Json.Reading
import NodeHarness.Proofs.DecimalText
import NodeHarness.Proofs.Utf8RoundTrip

/-! Printed numbers are read back. A numeral is scanned as the parts it is written with, as long as
what follows cannot go on with it, and its digits are taken into the significand one by one. -/
namespace NodeHarness.Json

open Text.Utf8 (encodeChars encodeChars_append encodeChars_cons encodeChar_ascii)
open Text.Decimal (Digits isDigit_bounds le_ofDigitChars ofDigitChars_append ofDigitChars_cons)

def digitValues (cs : List Char) : List Nat := cs.map Text.Decimal.digitValue

/-- The input does not go on with a byte that a number could go on with. -/
def StopsNumber (rest : List UInt8) : Prop :=
  ∀ b ∈ rest.head?, isDigitByte b = false ∧ b ≠ 0x2e ∧ b ≠ 0x65 ∧ b ≠ 0x45

theorem stops_nil : StopsNumber [] := by simp [StopsNumber]

theorem takeDigits_stop {rest : List UInt8} (stop : ∀ b ∈ rest.head?, isDigitByte b = false) :
    takeDigits rest = ([], rest) := by
  cases rest with
  | nil => rfl
  | cons b rest =>
    have other := stop b rfl
    simp [takeDigits, other]

/-- A digit is one byte, which is a digit again. -/
theorem encode_digit {c : Char} (digit : c.isDigit = true) (cs : List Char) :
    ∃ b, encodeChars (c :: cs) = b :: encodeChars cs ∧ isDigitByte b = true ∧
      b.toNat - 0x30 = Text.Decimal.digitValue c := by
  obtain ⟨low, high⟩ := isDigit_bounds digit
  have byte : (UInt8.ofNat c.toNat).toNat = c.toNat := Text.Utf8.toNat_ofNat (by omega)
  refine ⟨UInt8.ofNat c.toNat, ?_, ?_, ?_⟩
  · rw [encodeChars_cons, encodeChar_ascii (by omega)]
    rfl
  · simp only [isDigitByte, UInt8.le_iff_toNat_le, byte, UInt8.reduceToNat, Bool.and_eq_true,
      decide_eq_true_eq]
    omega
  · rw [byte]
    rfl

theorem takeDigits_digits {cs : List Char} {rest : List UInt8}
    (digits : ∀ c ∈ cs, c.isDigit = true) (stop : ∀ b ∈ rest.head?, isDigitByte b = false) :
    takeDigits (encodeChars cs ++ rest) = (digitValues cs, rest) := by
  induction cs with
  | nil => exact takeDigits_stop stop
  | cons c cs ih =>
    obtain ⟨b, bytes, digit, value⟩ := encode_digit (digits c List.mem_cons_self) cs
    have later := ih fun c member => digits c (List.mem_cons_of_mem _ member)
    simp only [takeDigits, Prod.mk.injEq] at later ⊢
    simp [bytes, digit, later, value, digitValues]

/-- A number as it is printed. -/
structure Numeral where
  negative : Bool
  whole : List Char
  fraction : Option (List Char)
  exponent : Option (Bool × List Char)

namespace Numeral

def fractionChars (n : Numeral) : List Char :=
  match n.fraction with
  | none => []
  | some digits => '.' :: digits

def exponentChars (n : Numeral) : List Char :=
  match n.exponent with
  | none => []
  | some (below, digits) => 'e' :: (if below then '-' else '+') :: digits

def unsigned (n : Numeral) : List Char := n.whole ++ (n.fractionChars ++ n.exponentChars)

def chars (n : Numeral) : List Char := if n.negative then '-' :: n.unsigned else n.unsigned

def outline (n : Numeral) : NumberText :=
  ⟨n.negative, digitValues n.whole, n.fraction.map digitValues,
    n.exponent.map fun (below, digits) => (below, digitValues digits), .complete⟩

structure WellFormed (n : Numeral) : Prop where
  whole : Digits n.whole
  leading : ∀ c rest, n.whole = '0' :: c :: rest → False
  fraction : ∀ digits ∈ n.fraction, Digits digits
  exponent : ∀ part ∈ n.exponent, Digits part.2

end Numeral

theorem digitValues_ne_nil {cs : List Char} (some : cs ≠ []) : digitValues cs ≠ [] := by
  simpa [digitValues] using some

theorem scanExponent_numeral {n : NumberText} {rest : List UInt8} (m : Numeral)
    (digits : ∀ part ∈ m.exponent, Digits part.2) (complete : n.finish = .complete)
    (unread : n.exponent = none) (ends : StopsNumber rest) :
    scanExponent n (encodeChars m.exponentChars ++ rest) =
      (⟨n.negative, n.whole, n.fraction, m.outline.exponent, .complete⟩, some rest) := by
  obtain ⟨negative, whole, fraction, found, _⟩ := n
  cases complete
  cases unread
  cases written : m.exponent with
  | none =>
    simp only [Numeral.exponentChars, Numeral.outline, written]
    cases rest with
    | nil => rfl
    | cons b rest =>
      obtain ⟨_, _, small, big⟩ := ends b rfl
      simp [scanExponent, small, big]
  | some part =>
    obtain ⟨below, cs⟩ := part
    obtain ⟨some, all⟩ := digits _ written
    have taken := takeDigits_digits all fun b first => (ends b first).1
    simp only [Numeral.exponentChars, Numeral.outline, written]
    cases below with
    | true =>
      change scanExponent _ (0x65 :: 0x2d :: (encodeChars cs ++ rest)) = _
      simp [scanExponent, taken, digitValues_ne_nil some]
    | false =>
      change scanExponent _ (0x65 :: 0x2b :: (encodeChars cs ++ rest)) = _
      simp [scanExponent, taken, digitValues_ne_nil some]

theorem exponent_stop {m : Numeral} {rest : List UInt8} (ends : StopsNumber rest) :
    ∀ b ∈ (encodeChars m.exponentChars ++ rest).head?, isDigitByte b = false ∧ b ≠ 0x2e := by
  unfold Numeral.exponentChars
  split
  · exact fun b first => ⟨(ends b first).1, (ends b first).2.1⟩
  · intro b first
    cases first
    decide

theorem scanFraction_numeral {n : NumberText} {rest : List UInt8} (m : Numeral)
    (formed : m.WellFormed) (complete : n.finish = .complete)
    (unread : n.fraction = none ∧ n.exponent = none) (ends : StopsNumber rest) :
    scanFraction n (encodeChars (m.fractionChars ++ m.exponentChars) ++ rest) =
      (⟨n.negative, n.whole, m.outline.fraction, m.outline.exponent, .complete⟩, some rest) := by
  obtain ⟨negative, whole, fraction, found, _⟩ := n
  cases complete
  obtain ⟨rfl, rfl⟩ := unread
  have stop := exponent_stop (m := m) ends
  cases written : m.fraction with
  | none =>
    have later := scanExponent_numeral (n := ⟨negative, whole, none, none, .complete⟩) m
      formed.exponent rfl rfl ends
    simp only [Numeral.fractionChars, written, List.nil_append]
    have plain : scanFraction ⟨negative, whole, none, none, .complete⟩
        (encodeChars m.exponentChars ++ rest) =
        scanExponent ⟨negative, whole, none, none, .complete⟩
          (encodeChars m.exponentChars ++ rest) := by
      unfold scanFraction
      split
      · rename_i found
        exact absurd rfl (stop 0x2e (by rw [found]; rfl)).2
      · rfl
    rw [plain, later]
    simp [Numeral.outline, written]
  | some cs =>
    obtain ⟨some, all⟩ := formed.fraction _ written
    have taken := takeDigits_digits all fun b first => (stop b first).1
    have later := scanExponent_numeral
      (n := ⟨negative, whole, .some (digitValues cs), none, .complete⟩) m formed.exponent rfl rfl
      ends
    simp only [Numeral.fractionChars, written, List.cons_append]
    change scanFraction _ (0x2e :: (encodeChars (cs ++ m.exponentChars) ++ rest)) = _
    simp only [encodeChars_append, List.append_assoc]
    simp [scanFraction, taken, digitValues_ne_nil some, later, Numeral.outline, written]

theorem fraction_stop {m : Numeral} {rest : List UInt8} (ends : StopsNumber rest) :
    ∀ b ∈ (encodeChars (m.fractionChars ++ m.exponentChars) ++ rest).head?,
      isDigitByte b = false := by
  unfold Numeral.fractionChars
  split
  · exact fun b first => (exponent_stop ends b first).1
  · intro b first
    cases first
    decide

theorem scanNumber_numeral {m : Numeral} {rest : List UInt8} (formed : m.WellFormed)
    (ends : StopsNumber rest) :
    scanNumber m.negative (encodeChars m.unsigned ++ rest) = (m.outline, some rest) := by
  obtain ⟨some, all⟩ := formed.whole
  have taken := takeDigits_digits all (fraction_stop (m := m) ends)
  have later := scanFraction_numeral
    (n := ⟨m.negative, digitValues m.whole, none, none, .complete⟩) m formed rfl ⟨rfl, rfl⟩ ends
  rw [scanNumber, Numeral.unsigned, encodeChars_append, List.append_assoc, taken]
  dsimp only
  split
  · rename_i empty
    exact absurd empty (digitValues_ne_nil some)
  · rename_i values
    obtain ⟨c, cs, written, zero, more⟩ := List.map_eq_cons_iff.mp values
    obtain ⟨d, ds, rfl, _⟩ := List.map_eq_cons_iff.mp more
    have first := Text.Decimal.eq_zero_of_digitValue (all c (by simp [written])) zero
    exact (formed.leading d ds (by rw [written, first])).elim
  · rw [later]
    rfl

theorem foldl_digitValues (cs : List Char) (before : Nat) :
    (digitValues cs).foldl (fun n d => n * 10 + d) before = Nat.ofDigitChars 10 cs before := by
  rw [Nat.ofDigitChars_eq_foldl, digitValues, List.foldl_map]
  congr 1
  funext n c
  rw [Nat.mul_comm]
  rfl

theorem absorb_digits {cs : List Char} {before : Nat}
    (fits : Nat.ofDigitChars 10 cs before < Text.Decimal.words64) :
    NumberText.absorb before (digitValues cs) = (Nat.ofDigitChars 10 cs before, []) := by
  induction cs generalizing before with
  | nil => rfl
  | cons c cs ih =>
    have grown := le_ofDigitChars (before * 10 + Text.Decimal.digitValue c) cs
    rw [ofDigitChars_cons] at fits ⊢
    rw [digitValues, List.map_cons, NumberText.absorb, if_pos (by omega)]
    exact ih fits

namespace Numeral

/-- The digits without the point. -/
def significand (m : Numeral) : Nat := Nat.ofDigitChars 10 (m.whole ++ m.fraction.getD []) 0

def scale (m : Numeral) : Int := m.outline.exponentValue - (m.fraction.getD []).length

theorem value_natural {whole : List Char} {n : Nat} (number : Nat.ofDigitChars 10 whole 0 = n)
    (fits : n < Text.Decimal.words64) :
    (outline ⟨false, whole, none, none⟩).value = .ok (.natural n) := by
  rw [← number] at fits ⊢
  simp [NumberText.value, outline, absorb_digits fits]

theorem value_negative {whole : List Char} {n : Nat} (number : Nat.ofDigitChars 10 whole 0 = n + 1)
    (fits : n < Text.Decimal.words64 / 2) :
    (outline ⟨true, whole, none, none⟩).value = .ok (.negative n) := by
  have bound : n + 1 < Text.Decimal.words64 := by omega
  have inside : ¬ (n + 1 = 0 ∨ Text.Decimal.words64 / 2 < n + 1) := by omega
  rw [← number] at bound
  simp only [NumberText.value, outline, absorb_digits bound, number, Option.map_none, if_true,
    inside, if_false, Nat.add_sub_cancel]

/-- With a point or an exponent a number is a double, whether it is whole or not. -/
theorem value_floating {m : Numeral} {word : Nat} (fits : m.significand < Text.Decimal.words64)
    (floating : m.fraction.isSome = true ∨ m.exponent.isSome = true)
    (scaled : NumberText.scale m.significand m.scale = some word) :
    m.outline.value = .ok (.floating ⟨m.negative, word⟩) := by
  have split : m.significand =
      Nat.ofDigitChars 10 (m.fraction.getD []) (Nat.ofDigitChars 10 m.whole 0) :=
    ofDigitChars_append 0 m.whole (m.fraction.getD [])
  have first : Nat.ofDigitChars 10 m.whole 0 < Text.Decimal.words64 := by
    have grown := le_ofDigitChars (Nat.ofDigitChars 10 m.whole 0) (m.fraction.getD [])
    omega
  have values : (m.fraction.map digitValues).getD [] = digitValues (m.fraction.getD []) := by
    cases m.fraction <;> rfl
  have all : ((digitValues (m.fraction.getD [])).length - ([] : List Nat).length : Nat) =
      (m.fraction.getD []).length := List.length_map _
  rw [split] at fits scaled
  simp only [NumberText.value, outline, absorb_digits first, values, absorb_digits fits, all]
  simp only [scale, outline] at scaled
  -- the whole number without a fraction or an exponent is the one case apart
  cases fraction : m.fraction with
  | none =>
    cases exponent : m.exponent with
    | none => simp [fraction, exponent] at floating
    | some part =>
      simp only [fraction, exponent] at scaled
      simp only [Option.map_none, Option.map_some, List.length_nil, Int.natCast_zero,
        Int.add_zero] at scaled ⊢
      rw [scaled]
  | some digits =>
    simp only [fraction] at scaled
    simp only [Option.map_some, List.length_nil, Int.natCast_zero, Int.add_zero] at scaled ⊢
    rw [scaled]

end Numeral

end NodeHarness.Json
