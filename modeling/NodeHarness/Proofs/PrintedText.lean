import NodeHarness.Json.Printer
import NodeHarness.Text.Blank

/-! What printed JSON is made of. Numbers, words and brackets hold neither a quote nor white
space. Inside a printed text a quote stands only behind a backslash. -/
namespace NodeHarness

namespace Json

/-- What a character of a text can be printed as. -/
inductive Escaped (c : Char) : List Char → Prop
  | plain : c ≠ '"' → c ≠ '\\' → Escaped c [c]
  | quote : c = '"' → Escaped c ['\\', '"']
  | other {code : List Char} : c ≠ '"' → '"' ∉ code → Escaped c ('\\' :: code)

theorem hexDigit_ne_quote : ∀ n < 16, '"' ≠ hexDigit n := by decide

theorem escape_escaped (c : Char) : Escaped c (escape c) := by
  unfold escape
  split
  · exact .quote ‹_›
  rename_i unquoted
  split
  · exact .other unquoted (by decide)
  rename_i straight
  iterate 5
    split
    · exact .other unquoted (by decide)
  split
  · have high := hexDigit_ne_quote (c.toNat / 16) (by omega)
    have low := hexDigit_ne_quote (c.toNat % 16) (by omega)
    exact .other unquoted (by simp [high, low])
  · exact .plain unquoted straight

end Json

def Json.bare (c : Char) : Bool := c != '"' && !Text.isBlank c

namespace Number

/-- The characters that numbers are written with. -/
def numeral (c : Char) : Bool := c.isDigit || ['.', 'e', '+', '-'].contains c

theorem bare_of_numeral {c : Char} (written : numeral c = true) : Json.bare c = true := by
  simp only [numeral, Bool.or_eq_true, List.contains_iff_mem, List.mem_cons, List.not_mem_nil,
    or_false] at written
  rcases written with digit | rfl | rfl | rfl | rfl
  · have unquoted : c ≠ '"' := by
      rintro rfl
      cases digit
    simp only [Char.isDigit, Bool.and_eq_true, decide_eq_true_eq, UInt32.le_iff_toNat_le] at digit
    have unblank : Text.isBlank c = false := by
      have low : 48 ≤ c.toNat := digit.1
      have high : c.toNat ≤ 57 := digit.2
      simp [Text.isBlank, Text.blankRanges]
      omega
    simp [Json.bare, unquoted, unblank]
  all_goals decide

theorem all_digits (n : Nat) : (Text.Decimal.digits n).all numeral = true := by
  rw [List.all_eq_true]
  intro c member
  have digit := Nat.isDigit_of_mem_toDigits (by decide) (by decide) member
  simp [numeral, digit]

theorem all_normalDigits (digits : Nat) (exponent : Int) :
    (normalDigits digits exponent).1.all numeral = true := by
  have all := List.all_eq_true.mp (all_digits digits)
  rw [List.all_eq_true]
  intro c member
  have kept : c ∈ (Text.Decimal.digits digits).reverse :=
    (List.dropWhile_sublist _).subset (List.mem_reverse.mp member)
  exact all c (List.mem_reverse.mp kept)

theorem all_writeDigits (p : Positional) {cs : List Char} (exponent : Int)
    (digits : cs.all numeral = true) : (writeDigits p cs exponent).all numeral = true := by
  have zeros (n : Nat) : (List.replicate n '0').all numeral = true := by
    rw [List.all_replicate]
    split <;> rfl
  have cut (n : Nat) : (cs.take n).all numeral = true ∧ (cs.drop n).all numeral = true := by
    rw [← Bool.and_eq_true, ← List.all_append, List.take_append_drop]
    exact digits
  have signs : numeral '0' = true ∧ numeral '.' = true ∧ numeral 'e' = true := by decide
  have sign : numeral (if exponent < 0 then '-' else '+') = true := by split <;> decide
  have powers := all_digits exponent.natAbs
  unfold writeDigits
  split
  · split
    · simp [zeros, digits, signs]
    · dsimp only
      split
      · simp [zeros, digits, signs]
      · simp [cut, signs]
  · dsimp only
    split <;> simp_all

theorem all_floating {x : Floating} {f : BinaryFormat} {p : Positional} {cs : List Char}
    (written : x.chars? f p = some cs) : cs.all numeral = true := by
  have signs : numeral '0' = true ∧ numeral '.' = true ∧ numeral '-' = true := by decide
  have signed : (if x.negative then ['-'] else []).all numeral = true := by
    split <;> simp [signs]
  unfold Floating.chars? at written
  split at written
  · cases written
  dsimp only at written
  split at written
  · cases written
    simp [signed, signs]
  · cases written
    rw [List.all_append, signed, Bool.true_and]
    exact all_writeDigits p _ (all_normalDigits _ _)

end Number

namespace Json

/-- What is printed for anything but a text has no quote in it and does not begin with white
space, up to the first item or member. -/
theorem printNumber_bare (n : JsonNumber) : (printNumber n).all bare = true := by
  have bare_all {cs : List Char} (all : cs.all Number.numeral = true) : cs.all bare = true := by
    rw [List.all_eq_true] at all ⊢
    exact fun c member => Number.bare_of_numeral (all c member)
  cases n with
  | natural n => exact bare_all (Number.all_digits n)
  | negative n =>
    have digits := bare_all (Number.all_digits (n + 1))
    rw [printNumber, List.all_cons, digits]
    decide
  | floating x =>
    rw [printNumber]
    cases written : x.chars? .binary64 .binary64 with
    | none => decide
    | some cs => exact bare_all (Number.all_floating written)

end Json
end NodeHarness
