import Mathlib.Algebra.Order.Ring.Nat
import Mathlib.Tactic.Ring
import NodeHarness.Number.Binary

/-! Rounding keeps the order. A larger ratio has no smaller word, and a larger word stands for no
smaller number, so products of larger words are no smaller. -/
namespace NodeHarness.Number.BinaryFormat

theorem roundDiv_bounds (n d : Nat) : n / d ≤ roundDiv n d ∧ roundDiv n d ≤ n / d + 1 := by
  unfold roundDiv
  dsimp only
  repeat' split
  all_goals omega

theorem roundDiv_mono {n m : Nat} (le : n ≤ m) (d : Nat) : roundDiv n d ≤ roundDiv m d := by
  have below := roundDiv_bounds n d
  have above := roundDiv_bounds m d
  have quotients : n / d ≤ m / d := Nat.div_le_div_right le
  rcases Nat.lt_or_eq_of_le quotients with less | same
  · omega
  · have left := Nat.div_add_mod n d
    have right := Nat.div_add_mod m d
    rw [← same] at right
    have rests : n % d ≤ m % d := by omega
    unfold roundDiv
    rw [← same]
    dsimp only
    repeat' split
    all_goals omega

section Format

variable (f : BinaryFormat)

/-- How many bits of a quotient do not fit the precision. -/
def excess (q : Nat) : Nat := q.log2 - (f.precision - 1)

/-- The smallest significand of full precision. -/
def half : Nat := 2 ^ (f.precision - 1)

theorem log2_mono {q r : Nat} (le : q ≤ r) : q.log2 ≤ r.log2 := by
  by_cases zero : q = 0
  · simp [zero]
  · exact (Nat.le_log2 (by omega)).mpr ((Nat.log2_self_le zero).trans le)

theorem excess_mono {q r : Nat} (le : q ≤ r) : f.excess q ≤ f.excess r :=
  Nat.sub_le_sub_right (log2_mono le) _

theorem kept_lt (q : Nat) : q / 2 ^ f.excess q < 2 * f.half := by
  rw [Nat.div_lt_iff_lt_mul (Nat.two_pow_pos _), half, ← Nat.pow_succ', ← Nat.pow_add]
  exact Nat.lt_log2_self.trans_le (Nat.pow_le_pow_right (by decide) (by rw [excess]; omega))

theorem half_le_kept {q : Nat} (some : 0 < f.excess q) : f.half ≤ q / 2 ^ f.excess q := by
  have large : q ≠ 0 := by
    rintro rfl
    simp [excess] at some
  rw [Nat.le_div_iff_mul_le (Nat.two_pow_pos _), half, ← Nat.pow_add]
  have bits : f.precision - 1 + f.excess q = q.log2 := by
    rw [excess] at some ⊢
    omega
  rw [bits]
  exact Nat.log2_self_le large

/-- The word before it is bounded by infinity. -/
def unbounded (n d : Nat) : Nat :=
  f.excess (n / d) * f.half + roundDiv n (d <<< f.excess (n / d))

theorem nearestScaled_eq (n d : Nat) : f.nearestScaled n d = min (f.unbounded n d) f.infinity := by
  rw [nearestScaled, unbounded, half, ← Nat.shiftLeft_eq]
  rfl

theorem unbounded_mono {n m : Nat} (le : n ≤ m) (d : Nat) : f.unbounded n d ≤ f.unbounded m d := by
  have quotients : n / d ≤ m / d := Nat.div_le_div_right le
  have shift (k s : Nat) : k / (d <<< s) = k / d / 2 ^ s := by
    rw [Nat.shiftLeft_eq, Nat.div_div_eq_div_mul]
  rcases Nat.lt_or_eq_of_le (f.excess_mono quotients) with less | same
  · -- the smaller one carries at most into the next exponent, where the larger one is
    have small := (roundDiv_bounds n (d <<< f.excess (n / d))).2
    have large := (roundDiv_bounds m (d <<< f.excess (m / d))).1
    have kept := f.kept_lt (n / d)
    have full := f.half_le_kept (Nat.zero_lt_of_lt less)
    rw [shift] at small large
    have step : (f.excess (n / d) + 1) * f.half ≤ f.excess (m / d) * f.half :=
      Nat.mul_le_mul_right _ less
    rw [Nat.add_mul, Nat.one_mul] at step
    unfold unbounded
    omega
  · unfold unbounded
    rw [← same]
    exact Nat.add_le_add_left (roundDiv_mono le _) _

theorem nearestScaled_mono {n m : Nat} (le : n ≤ m) (d : Nat) :
    f.nearestScaled n d ≤ f.nearestScaled m d := by
  rw [nearestScaled_eq, nearestScaled_eq]
  exact min_le_min_right _ (f.unbounded_mono le d)

theorem nearest_mono {n m : Nat} (le : n ≤ m) (d : Nat) : f.nearest n d ≤ f.nearest m d := by
  refine f.nearestScaled_mono ?_ d
  rw [Nat.shiftLeft_eq, Nat.shiftLeft_eq]
  exact Nat.mul_le_mul_right _ le

theorem scaled_small {word : Nat} (small : word < f.half) : f.scaled word = word := by
  have none : word / f.half - 1 = 0 := by rw [Nat.div_eq_of_lt small]
  rw [half] at small none
  simp only [scaled, significand, shift, Nat.shiftLeft_eq, Nat.one_mul, Nat.shiftRight_eq_div_pow,
    none, small, if_true, Nat.pow_zero, Nat.mul_one]

theorem scaled_large {word : Nat} (large : f.half ≤ word) :
    f.scaled word = (f.half + word % f.half) * 2 ^ (word / f.half - 1) := by
  rw [half] at large
  simp only [scaled, significand, shift, Nat.shiftLeft_eq, Nat.one_mul, Nat.shiftRight_eq_div_pow,
    Nat.not_lt.mpr large, if_false, half]

theorem scaled_mono {word other : Nat} (le : word ≤ other) : f.scaled word ≤ f.scaled other := by
  have positive : 0 < f.half := Nat.two_pow_pos _
  rcases Nat.lt_or_ge word f.half with small | large
  · rw [f.scaled_small small]
    rcases Nat.lt_or_ge other f.half with below | above
    · rw [f.scaled_small below]
      exact le
    · rw [f.scaled_large above]
      calc
        word ≤ (f.half + other % f.half) * 1 := by omega
        _ ≤ _ := Nat.mul_le_mul_left _ (Nat.two_pow_pos _)
  · have above : f.half ≤ other := large.trans le
    rw [f.scaled_large large, f.scaled_large above]
    have rest := Nat.mod_lt word positive
    have exponents : word / f.half ≤ other / f.half := Nat.div_le_div_right le
    rcases Nat.lt_or_eq_of_le exponents with less | same
    · have begun : 1 ≤ word / f.half := Nat.div_pos large positive
      -- a significand is less than twice the smallest one
      calc
        (f.half + word % f.half) * 2 ^ (word / f.half - 1)
          ≤ f.half * 2 * 2 ^ (word / f.half - 1) := Nat.mul_le_mul_right _ (by omega)
        _ = f.half * 2 ^ (word / f.half - 1 + 1) := by rw [Nat.pow_succ']; ring
        _ ≤ f.half * 2 ^ (other / f.half - 1) :=
          Nat.mul_le_mul_left _ (Nat.pow_le_pow_right (by decide) (by omega))
        _ ≤ _ := Nat.mul_le_mul_right _ (Nat.le_add_right _ _)
    · have left := Nat.div_add_mod word f.half
      have right := Nat.div_add_mod other f.half
      rw [← same] at right ⊢
      exact Nat.mul_le_mul_right _ (by omega)

theorem mul_mono {a b c d : Nat} (left : a ≤ c) (right : b ≤ d) : f.mul a b ≤ f.mul c d :=
  f.nearestScaled_mono (Nat.mul_le_mul (f.scaled_mono left) (f.scaled_mono right)) _

end Format

end NodeHarness.Number.BinaryFormat
