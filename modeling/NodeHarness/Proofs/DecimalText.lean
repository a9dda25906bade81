import Mathlib.Algebra.Order.Ring.Nat
import Mathlib.Data.Nat.Digits.Defs
import Mathlib.Tactic.Ring
import NodeHarness.Proofs.Padding
import NodeHarness.Text.Decimal

/-! Decimal text and the number it stands for. Digits are read as that number, with zeros in front
and with white space on both sides; a number is written with none of them. -/
namespace NodeHarness.Text

namespace Decimal

theorem isDigit_bounds {c : Char} (digit : c.isDigit = true) : 48 ≤ c.toNat ∧ c.toNat ≤ 57 := by
  simp only [Char.isDigit, Bool.and_eq_true, decide_eq_true_eq, UInt32.le_iff_toNat_le] at digit
  exact digit

theorem digitValue_eq (c : Char) : digitValue c = c.toNat - 48 := rfl

theorem eq_zero_of_digitValue {c : Char} (digit : c.isDigit = true) (zero : digitValue c = 0) :
    c = '0' := by
  obtain ⟨low, _⟩ := isDigit_bounds digit
  have same : c.toNat = '0'.toNat := by
    rw [digitValue_eq] at zero
    change c.toNat = 48
    omega
  exact Char.toNat_inj.mp same

/-- One digit or more. -/
def Digits (cs : List Char) : Prop := cs ≠ [] ∧ ∀ c ∈ cs, c.isDigit = true

theorem digits_append {as bs : List Char} (some : as ≠ [] ∨ bs ≠ [])
    (left : ∀ c ∈ as, c.isDigit = true) (right : ∀ c ∈ bs, c.isDigit = true) :
    Digits (as ++ bs) := by
  refine ⟨?_, fun c member => (List.mem_append.mp member).elim (left c) (right c)⟩
  intro empty
  obtain ⟨rfl, rfl⟩ := List.append_eq_nil_iff.mp empty
  simp at some

theorem digits_zeros (count : Nat) : ∀ c ∈ List.replicate count '0', c.isDigit = true := by
  intro c member
  rw [List.eq_of_mem_replicate member]
  rfl

section Value

variable (before : Nat)

theorem ofDigitChars_cons (c : Char) (cs : List Char) :
    Nat.ofDigitChars 10 (c :: cs) before =
      Nat.ofDigitChars 10 cs (before * 10 + digitValue c) := by
  rw [Nat.ofDigitChars_eq_foldl, Nat.ofDigitChars_eq_foldl, List.foldl_cons, Nat.mul_comm]
  rfl

theorem ofDigitChars_append (as bs : List Char) :
    Nat.ofDigitChars 10 (as ++ bs) before =
      Nat.ofDigitChars 10 bs (Nat.ofDigitChars 10 as before) := by
  simp only [Nat.ofDigitChars_eq_foldl, List.foldl_append]

theorem le_ofDigitChars (cs : List Char) : before ≤ Nat.ofDigitChars 10 cs before := by
  induction cs generalizing before with
  | nil => exact Nat.le_refl before
  | cons c cs ih =>
    have grown := ih (before * 10 + digitValue c)
    rw [ofDigitChars_cons]
    omega

theorem ofDigitChars_lt {cs : List Char} (digits : ∀ c ∈ cs, c.isDigit = true) :
    Nat.ofDigitChars 10 cs before < (before + 1) * 10 ^ cs.length := by
  induction cs generalizing before with
  | nil => simp
  | cons c cs ih =>
    have bounds := isDigit_bounds (digits c List.mem_cons_self)
    have later := ih (before * 10 + digitValue c) fun c member =>
      digits c (List.mem_cons_of_mem _ member)
    rw [ofDigitChars_cons, List.length_cons, Nat.pow_succ', ← Nat.mul_assoc]
    exact later.trans_le (Nat.mul_le_mul_right _ (by rw [digitValue_eq]; omega))

theorem ofDigitChars_zeros (count : Nat) :
    Nat.ofDigitChars 10 (List.replicate count '0') before = before * 10 ^ count := by
  induction count generalizing before with
  | zero => simp
  | succ count ih =>
    rw [List.replicate_succ, ofDigitChars_cons, ih, Nat.pow_succ']
    change (before * 10 + 0) * 10 ^ count = _
    ring

end Value

theorem digits_digits (n : Nat) : Digits (digits n) :=
  ⟨Nat.toDigits_ne_nil, fun _ member => Nat.isDigit_of_mem_toDigits (by decide) (by decide) member⟩

theorem value_digits (n : Nat) : Nat.ofDigitChars 10 (digits n) 0 = n :=
  Nat.ofDigitChars_ten_toDigits

/-- There are as many digits as a number needs. -/
theorem digits_bounds {n : Nat} (positive : 0 < n) :
    10 ^ ((digits n).length - 1) ≤ n ∧ n < 10 ^ (digits n).length := by
  constructor
  · by_contra small
    have some : 0 < (digits n).length := Nat.length_toDigits_pos
    have more : 0 < (digits n).length - 1 := by
      by_contra one
      rw [Nat.eq_zero_of_not_pos one] at small
      omega
    have shorter : (digits n).length ≤ (digits n).length - 1 :=
      Nat.toDigits_length 10 n _ more (by omega)
    omega
  · have bound := ofDigitChars_lt 0 (digits_digits n).2
    rw [value_digits, Nat.zero_add, Nat.one_mul] at bound
    exact bound

/-- No number but zero is written with a zero in front. -/
theorem digits_first {n : Nat} (positive : 0 < n) (rest : List Char) : digits n ≠ '0' :: rest := by
  intro written
  have all := (digits_digits n).2
  have value := value_digits n
  have large := (digits_bounds positive).1
  rw [written] at all value large
  have small := ofDigitChars_lt 0 fun c member => all c (List.mem_cons_of_mem _ member)
  rw [ofDigitChars_cons] at value
  change Nat.ofDigitChars 10 rest 0 = n at value
  rw [List.length_cons, Nat.add_sub_cancel] at large
  omega

theorem readDigits_digits {cs : List Char} {bound before : Nat}
    (digits : ∀ c ∈ cs, c.isDigit = true) (fits : Nat.ofDigitChars 10 cs before < bound) :
    readDigits bound before cs = .ok (Nat.ofDigitChars 10 cs before) := by
  induction cs generalizing before with
  | nil => rfl
  | cons c cs ih =>
    -- a number that fits at the end fits at every digit
    have grown := le_ofDigitChars (before * 10 + digitValue c) cs
    rw [ofDigitChars_cons] at fits ⊢
    have pushed : push bound before c = .ok (before * 10 + digitValue c) := by
      rw [push, if_pos (digits c List.mem_cons_self)]
      dsimp only
      rw [if_pos (by omega)]
    rw [readDigits, pushed]
    exact ih (fun c member => digits c (List.mem_cons_of_mem _ member)) fits

theorem readBelow_digits {cs : List Char} {bound : Nat} (written : Digits cs)
    (fits : Nat.ofDigitChars 10 cs 0 < bound) :
    readBelow bound cs = .ok (Nat.ofDigitChars 10 cs 0) := by
  obtain ⟨some, digits⟩ := written
  have plus : ∀ rest, cs ≠ '+' :: rest := by
    rintro rest rfl
    exact absurd (digits '+' List.mem_cons_self) (by decide)
  unfold readBelow
  split
  · exact absurd rfl some
  · exact absurd rfl (plus [])
  · exact absurd rfl (plus _)
  · exact readDigits_digits digits fits

end Decimal

theorem isBlank_digit {c : Char} (digit : c.isDigit = true) : isBlank c = false := by
  obtain ⟨low, high⟩ := Decimal.isDigit_bounds digit
  simp [isBlank, blankRanges]
  omega

theorem trim_digits {front digits back : List Char} (written : Decimal.Digits digits)
    (before : ∀ c ∈ front, isBlank c = true) (behind : ∀ c ∈ back, isBlank c = true) :
    trim (front ++ digits ++ back) = digits := by
  have solid : ∀ c ∈ digits, isBlank c = false := fun c member => isBlank_digit (written.2 c member)
  refine Padded.eq ⟨⟨front, back, rfl, before, behind⟩, ?_, ?_⟩
  · exact fun c first => solid c (List.mem_of_mem_head? first)
  · exact fun c last => solid c (List.mem_of_mem_getLast? last)

end NodeHarness.Text
