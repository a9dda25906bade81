import NodeHarness.Json.Reading
import NodeHarness.Proofs.Rounding
import NodeHarness.Proofs.ShortestDigits

/-! The reader of numbers on the digits of doubles. It rounds the digits, the power of ten and their
product, so it need not come to the double that was printed, but it never leaves the doubles: the
digits of all but the largest double stay far enough below the end, and those of the largest one
are read as they are. -/
namespace NodeHarness.Number

open BinaryFormat

/-- No shortest text of a double stands for more, the largest double apart. -/
def largestPrinted : Nat := (2 ^ 54 - 3) * 2 ^ 970

theorem scaled_le {word : Nat} (le : word ≤ binary64.infinity - 2) :
    binary64.scaled word ≤ (2 ^ 53 - 2) * 2 ^ 2045 := by
  have last : binary64.scaled (binary64.infinity - 2) = (2 ^ 53 - 2) * 2 ^ 2045 := by
    decide +kernel
  exact (binary64.scaled_mono le).trans_eq last

theorem shift_le {word : Nat} (le : word ≤ binary64.infinity - 2) : binary64.shift word ≤ 2045 := by
  have bound : word ≤ 2047 * 2 ^ 52 - 2 := le
  rw [BinaryFormat.shift, Nat.shiftRight_eq_div_pow]
  change word / 2 ^ 52 - 1 ≤ 2045
  omega

theorem cast_shifted (m k : Nat) : ((m * 2 ^ k : Nat) : ℚ) = m * 2 ^ k := by
  push_cast
  rfl

theorem number_le {word : Nat} (le : word ≤ binary64.infinity - 2) :
    binary64.number word ≤ (2 ^ 53 - 2) * 2 ^ 971 := by
  have scaled : (binary64.scaled word : ℚ) ≤ ((2 ^ 53 - 2 : Nat) : ℚ) * 2 ^ 2045 := by
    rw [← cast_shifted]
    exact Nat.cast_le.mpr (scaled_le le)
  have significand : ((2 ^ 53 - 2 : Nat) : ℚ) = 2 ^ 53 - 2 := by norm_num
  have unit : binary64.unit = 1074 := rfl
  rw [number, unit, div_le_iff₀ (by positivity), mul_assoc, ← pow_add, ← significand]
  exact scaled

theorem step_le {word : Nat} (le : word ≤ binary64.infinity - 2) :
    binary64.step word ≤ 2 ^ 971 := by
  have unit : binary64.unit = 1074 := rfl
  rw [step, div_le_iff₀ (by positivity), unit, ← pow_add]
  exact pow_le_pow_right₀ (by norm_num) (shift_le le)

theorem shortest_le_largest {word : Nat} (positive : 0 < binary64.significand word)
    (le : word ≤ binary64.infinity - 2) :
    ((binary64.shortest word).1 : ℚ) * 10 ^ (binary64.shortest word).2 ≤ largestPrinted := by
  have number := number_le le
  have step := step_le le
  have largest : (largestPrinted : ℚ) = (2 ^ 54 - 3) * 2 ^ 970 := by
    have significand : ((2 ^ 54 - 3 : Nat) : ℚ) = 2 ^ 54 - 3 := by norm_num
    rw [largestPrinted, cast_shifted, significand]
  have double : (2 : ℚ) ^ 971 = 2 ^ 970 * 2 := pow_succ 2 970
  have unit : (0 : ℚ) < 2 ^ 970 := by positivity
  rw [double] at number step
  rw [largest]
  generalize (2 : ℚ) ^ 970 = u at number step unit ⊢
  rcases binary64.shortest_le positive with close | close
  · refine close.trans ?_
    linarith
  · refine close.trans ?_
    linarith

theorem shortest_last : binary64.shortest (binary64.infinity - 1) = (17976931348623157, 292) := by
  decide +kernel

end NodeHarness.Number

namespace NodeHarness.Json.NumberText

open Number BinaryFormat

theorem tenth_mono {e k : Nat} (le : e ≤ k) : tenth e ≤ tenth k :=
  binary64.nearest_mono (Nat.pow_le_pow_right (by decide) le) 1

/-- Rounding never takes a product over the end of the doubles, one power of ten at a time. -/
theorem product_lt {significand e : Nat} (few : significand ≤ 10 ^ 18)
    (bound : significand * 10 ^ e ≤ largestPrinted) (small : e ≤ 308) :
    binary64.mul (binary64.nearest significand 1) (tenth e) < binary64.infinity := by
  by_cases far : e ≤ 289
  · have most : binary64.mul (binary64.nearest (10 ^ 18) 1) (tenth 289) < binary64.infinity := by
      decide +kernel
    exact (binary64.mul_mono (binary64.nearest_mono few 1) (tenth_mono far)).trans_lt most
  · have each : ∀ k < 19, binary64.mul (binary64.nearest (largestPrinted / 10 ^ (290 + k)) 1)
        (tenth (290 + k)) < binary64.infinity := by
      decide +kernel
    have most := each (e - 290) (by omega)
    have same : 290 + (e - 290) = e := by omega
    rw [same] at most
    have le : significand ≤ largestPrinted / 10 ^ e :=
      (Nat.le_div_iff_mul_le (by positivity)).mpr bound
    exact (binary64.mul_mono (binary64.nearest_mono le 1) (Nat.le_refl _)).trans_lt most

theorem scale_isSome {significand e : Nat} (few : significand ≤ 10 ^ 18)
    (bound : significand * 10 ^ e ≤ largestPrinted) : (scale significand e).isSome = true := by
  change (scale significand (Int.ofNat e)).isSome = true
  unfold scale
  dsimp only
  split
  · rfl
  rename_i some
  have positive : 0 < significand := by
    by_contra none
    rw [Nat.eq_zero_of_not_pos none] at some
    exact some rfl
  have small : e ≤ 308 := by
    by_contra large
    have power : 10 ^ 309 ≤ 10 ^ e := pow_le_pow_right₀ (by decide) (by omega)
    have beyond : largestPrinted < 10 ^ 309 := by decide +kernel
    have least : 10 ^ e ≤ significand * 10 ^ e := Nat.le_mul_of_pos_left _ positive
    omega
  rw [if_neg (by rw [stepExponent]; omega), if_neg (Nat.not_le.mpr (product_lt few bound small))]
  rfl

theorem scale_last : (scale 17976931348623157 292).isSome = true := by decide +kernel

theorem scale_below {significand : Nat} {exponent : Int} (below : exponent < 0) :
    (scale significand exponent).isSome = true := by
  cases exponent with
  | ofNat e => exact absurd below (by simp)
  | negSucc e => rfl

end NodeHarness.Json.NumberText
