import Mathlib.Algebra.Order.Field.Power
import Mathlib.Data.Nat.Cast.Order.Field
import Mathlib.Tactic.FieldSimp
import Mathlib.Tactic.Linarith
import Mathlib.Tactic.NormNum
import Mathlib.Tactic.Positivity
import NodeHarness.Number.Shortest
import NodeHarness.Proofs.DecimalText

/-! The shortest digits of a number as a rational: how many they are, and how far they can be from
the number. -/
namespace NodeHarness.Number

theorem digitCount_bounds {n : Nat} (positive : 0 < n) :
    10 ^ (digitCount n - 1) ≤ n ∧ n < 10 ^ digitCount n := Text.Decimal.digits_bounds positive

theorem leading_bounds {n d : Nat} (numerator : 0 < n) (denominator : 0 < d) :
    (10 : ℚ) ^ leadingExponent n d ≤ n / d ∧ (n : ℚ) / d < 10 ^ (leadingExponent n d + 1) := by
  have positive : (0 : ℚ) < d := by exact_mod_cast denominator
  rw [le_div_iff₀ positive, div_lt_iff₀ positive]
  unfold leadingExponent
  split
  · rename_i large
    obtain ⟨low, high⟩ := digitCount_bounds (Nat.div_pos large denominator)
    have some : 0 < digitCount (n / d) := Nat.length_toDigits_pos
    obtain ⟨k, count⟩ : ∃ k, digitCount (n / d) = k + 1 := ⟨digitCount (n / d) - 1, by omega⟩
    rw [count] at low high ⊢
    have exponent : ((k + 1 : Nat) : Int) - 1 = (k : Int) := by omega
    have next : ((k + 1 : Nat) : Int) - 1 + 1 = ((k + 1 : Nat) : Int) := by omega
    rw [next, exponent, zpow_natCast, zpow_natCast]
    constructor
    · have le : 10 ^ k * d ≤ n := (Nat.mul_le_mul_right d low).trans (Nat.div_mul_le_self n d)
      exact_mod_cast le
    · have lt : n < 10 ^ (k + 1) * d := (Nat.div_lt_iff_lt_mul denominator).mp high
      exact_mod_cast lt
  · rename_i small
    have quotient : 0 < (d - 1) / n := Nat.div_pos (by omega) numerator
    obtain ⟨low, high⟩ := digitCount_bounds quotient
    have some : 0 < digitCount ((d - 1) / n) := Nat.length_toDigits_pos
    obtain ⟨k, count⟩ : ∃ k, digitCount ((d - 1) / n) = k + 1 :=
      ⟨digitCount ((d - 1) / n) - 1, by omega⟩
    rw [count] at low high ⊢
    have next : -((k + 1 : Nat) : Int) + 1 = -(k : Int) := by omega
    rw [next, zpow_neg, zpow_neg, zpow_natCast, zpow_natCast, inv_mul_le_iff₀ (by positivity),
      lt_inv_mul_iff₀ (by positivity)]
    constructor
    · have less : d - 1 < 10 ^ (k + 1) * n := (Nat.div_lt_iff_lt_mul numerator).mp high
      have le : d ≤ 10 ^ (k + 1) * n := by omega
      exact_mod_cast le
    · have le : 10 ^ k * n ≤ d - 1 :=
        (Nat.mul_le_mul_right n low).trans (Nat.div_mul_le_self (d - 1) n)
      have lt : 10 ^ k * n < d := by omega
      exact_mod_cast lt

/-- A grid point next to a number, on one side or the other. -/
def Neighbour (x : ℚ) (k : Nat) : Prop := x - 1 < k ∧ (k : ℚ) ≤ x + 1

theorem Neighbour.pos {x : ℚ} {k : Nat} (neighbour : Neighbour x k) (large : 1 ≤ x) : 0 < k := by
  have above := neighbour.1
  by_contra none
  rw [Nat.eq_zero_of_not_pos none, Nat.cast_zero] at above
  linarith

theorem Neighbour.le {x : ℚ} {k bound : Nat} (neighbour : Neighbour x k) (small : x < bound) :
    k ≤ bound := by
  have less : (k : ℚ) < (bound + 1 : Nat) := by
    rw [Nat.cast_add, Nat.cast_one]
    linarith [neighbour.2]
  exact Nat.le_of_lt_succ (Nat.cast_lt.mp less)

theorem floor_neighbour {n d : Nat} (denominator : 0 < d) :
    Neighbour (n / d) (n / d : Nat) ∧ Neighbour (n / d) (n / d + 1 : Nat) := by
  have positive : (0 : ℚ) < d := by exact_mod_cast denominator
  have low : ((n / d : Nat) : ℚ) ≤ (n : ℚ) / d := Nat.cast_div_le
  have high : (n : ℚ) / d < ((n / d : Nat) : ℚ) + 1 := by
    rw [div_lt_iff₀ positive]
    have lt : n < (n / d + 1) * d := (Nat.div_lt_iff_lt_mul denominator).mp (Nat.lt_succ_self _)
    exact_mod_cast lt
  rw [Neighbour, Neighbour, Nat.cast_add, Nat.cast_one]
  refine ⟨⟨?_, ?_⟩, ?_, ?_⟩ <;> linarith

theorem pow_ten (e : Nat) : Nat.pow 10 e = 10 ^ e := rfl

theorem gridNeighbours_neighbour (n : Nat) {d : Nat} (denominator : 0 < d) (exponent : Int) :
    Neighbour (n / d / 10 ^ exponent) (gridNeighbours n d exponent).1 ∧
      Neighbour (n / d / 10 ^ exponent) (gridNeighbours n d exponent).2 := by
  unfold gridNeighbours
  cases exponent with
  | ofNat e =>
    have denominators : 0 < d * Nat.pow 10 e := Nat.mul_pos denominator (Nat.pow_pos (by decide))
    have same : (n : ℚ) / d / 10 ^ (Int.ofNat e) = (n : ℚ) / (d * Nat.pow 10 e : Nat) := by
      rw [Int.ofNat_eq_natCast, zpow_natCast, div_div, pow_ten]
      push_cast
      rfl
    obtain ⟨floor, above⟩ := floor_neighbour (n := n) denominators
    rw [same]
    dsimp only
    split
    · exact ⟨floor, above⟩
    · exact ⟨above, floor⟩
  | negSucc e =>
    have same : (n : ℚ) / d / 10 ^ (Int.negSucc e) = ((n * Nat.pow 10 (e + 1) : Nat) : ℚ) / d := by
      rw [zpow_negSucc, div_inv_eq_mul, div_mul_eq_mul_div, pow_ten]
      push_cast
      rfl
    obtain ⟨floor, above⟩ := floor_neighbour (n := n * Nat.pow 10 (e + 1)) denominator
    rw [same]
    dsimp only
    split
    · exact ⟨floor, above⟩
    · exact ⟨above, floor⟩

theorem holds_bounds {i : Interval} {digits : Nat} {exponent : Int} (den : 0 < i.den)
    (holds : i.holds digits exponent = true) :
    (i.low : ℚ) / i.den ≤ digits * 10 ^ exponent ∧
      (digits : ℚ) * 10 ^ exponent ≤ i.high / i.den := by
  have positive : (0 : ℚ) < i.den := by exact_mod_cast den
  have inside {n low high : Nat}
      (within : (if i.closed then decide (low ≤ n) && decide (n ≤ high)
        else decide (low < n) && decide (n < high)) = true) : low ≤ n ∧ n ≤ high := by
    split at within <;> simp only [Bool.and_eq_true, decide_eq_true_eq] at within <;> omega
  rw [div_le_iff₀ positive, le_div_iff₀ positive]
  cases exponent with
  | ofNat e =>
    obtain ⟨low, high⟩ := inside holds
    rw [pow_ten] at low high
    rw [Int.ofNat_eq_natCast, zpow_natCast]
    exact ⟨by exact_mod_cast low, by exact_mod_cast high⟩
  | negSucc e =>
    obtain ⟨low, high⟩ := inside holds
    rw [pow_ten] at low high
    rw [zpow_negSucc, mul_right_comm, ← div_eq_mul_inv, le_div_iff₀ (by positivity),
      div_le_iff₀ (by positivity)]
    exact ⟨by exact_mod_cast low, by exact_mod_cast high⟩

/-- What a search comes to: a neighbour on a grid that is not finer than the last one. -/
structure Searched (i : Interval) (count : Nat) (first : Int) (found : Nat × Int) : Prop where
  fine : first - count ≤ found.2
  neighbour : Neighbour (i.mid / i.den / 10 ^ found.2) found.1
  inside : i.holds found.1 found.2 = true ∨ found.2 = first - count

theorem search_searched {i : Interval} (den : 0 < i.den) (count : Nat) (exponent : Int) :
    Searched i count exponent (i.search count exponent) := by
  induction count generalizing exponent with
  | zero =>
    rw [Interval.search]
    exact ⟨by simp, (gridNeighbours_neighbour _ den _).1, .inr (by simp)⟩
  | succ count ih =>
    obtain ⟨near, far⟩ := gridNeighbours_neighbour i.mid den exponent
    rw [Interval.search]
    generalize gridNeighbours i.mid i.den exponent = both at near far ⊢
    obtain ⟨first, second⟩ := both
    dsimp only
    split
    · rename_i holds
      exact ⟨by dsimp only; omega, near, .inl holds⟩
    split
    · rename_i holds
      exact ⟨by dsimp only; omega, far, .inl holds⟩
    · obtain ⟨fine, neighbour, inside⟩ := ih (exponent - 1)
      exact ⟨by omega, neighbour, inside.imp_right fun same => by omega⟩

namespace BinaryFormat

variable (f : BinaryFormat) {word : Nat}

theorem interval_mid (word : Nat) : (f.interval word).mid = 4 * f.scaled word := by
  simp only [interval, scaled, Nat.shiftLeft_eq, Nat.mul_assoc]

theorem interval_high (word : Nat) :
    (f.interval word).high = 4 * f.scaled word + 2 * 2 ^ f.shift word := by
  simp only [interval, scaled, Nat.shiftLeft_eq, Nat.add_mul, Nat.mul_assoc]

theorem interval_den (word : Nat) : (f.interval word).den = 4 * 2 ^ f.unit := by
  simp only [interval, Nat.shiftLeft_eq]

theorem interval_den_pos (word : Nat) : 0 < (f.interval word).den := by
  rw [interval_den]
  exact Nat.mul_pos (by decide) (Nat.two_pow_pos _)

theorem interval_low (positive : 0 < f.significand word) : 0 < (f.interval word).low := by
  simp only [interval, Nat.shiftLeft_eq]
  refine Nat.mul_pos ?_ (Nat.two_pow_pos _)
  split <;> omega

/-- The number that a word stands for. -/
def number (word : Nat) : ℚ := f.scaled word / 2 ^ f.unit

theorem interval_number (word : Nat) :
    ((f.interval word).mid : ℚ) / (f.interval word).den = f.number word := by
  rw [interval_mid, interval_den, number]
  push_cast
  rw [mul_div_mul_left _ _ (by norm_num)]

theorem scaled_pos (positive : 0 < f.significand word) : 0 < f.scaled word := by
  rw [scaled, Nat.shiftLeft_eq]
  exact Nat.mul_pos positive (Nat.two_pow_pos _)

/-- The first grid that is tried is the one of the leading digit. -/
theorem number_leading (positive : 0 < f.significand word) :
    ∃ leading : Int, (10 : ℚ) ^ leading ≤ f.number word ∧ f.number word < 10 ^ (leading + 1) ∧
      Searched (f.interval word) 17 leading (f.shortest word) := by
  have den := f.interval_den_pos word
  have mid : 0 < (f.interval word).mid := by
    rw [interval_mid]
    exact Nat.mul_pos (by decide) (f.scaled_pos positive)
  have bounds := leading_bounds mid den
  rw [interval_number] at bounds
  exact ⟨_, bounds.1, bounds.2, search_searched den 17 _⟩

/-- Text that is read as the number itself is not zero. -/
theorem holds_pos (positive : 0 < f.significand word) {digits : Nat} {exponent : Int}
    (holds : (f.interval word).holds digits exponent = true) : 0 < digits := by
  have least := (holds_bounds (f.interval_den_pos word) holds).1
  have low : (0 : ℚ) < (f.interval word).low / (f.interval word).den :=
    div_pos (by exact_mod_cast f.interval_low positive)
      (by exact_mod_cast f.interval_den_pos word)
  by_contra none
  rw [Nat.eq_zero_of_not_pos none, Nat.cast_zero, zero_mul] at least
  linarith

theorem shortest_digits (positive : 0 < f.significand word) :
    0 < (f.shortest word).1 ∧ (f.shortest word).1 ≤ 10 ^ 18 := by
  obtain ⟨leading, low, high, found⟩ := f.number_leading positive
  have neighbour := found.neighbour
  rw [interval_number] at neighbour
  have power : (0 : ℚ) < 10 ^ (f.shortest word).2 := by positivity
  constructor
  · rcases found.inside with holds | last
    · exact f.holds_pos positive holds
    · -- on the last grid the number has as many digits as there can be
      refine neighbour.pos ((le_div_iff₀ power).mpr ?_)
      rw [one_mul]
      exact (zpow_le_zpow_right₀ (by norm_num) (by omega)).trans low
  · refine neighbour.le ((div_lt_iff₀ power).mpr ?_)
    rw [Nat.cast_pow, Nat.cast_ofNat, ← zpow_natCast, ← zpow_add₀ (by norm_num)]
    have fine := found.fine
    refine high.trans_le (zpow_le_zpow_right₀ (by norm_num) ?_)
    push_cast at fine ⊢
    omega

/-- Between a number and the next larger one lies one step of its exponent. -/
def step (word : Nat) : ℚ := 2 ^ f.shift word / 2 ^ f.unit

/-- The shortest digits lie at most half a step above the number, or a small part of it. -/
theorem shortest_le (positive : 0 < f.significand word) :
    ((f.shortest word).1 : ℚ) * 10 ^ (f.shortest word).2 ≤ f.number word + f.step word / 2 ∨
      ((f.shortest word).1 : ℚ) * 10 ^ (f.shortest word).2 ≤
        f.number word * (1 + 1 / 10 ^ 17) := by
  obtain ⟨leading, low, _, found⟩ := f.number_leading positive
  obtain ⟨_, ⟨_, below⟩, inside⟩ := found
  generalize f.shortest word = found at *
  obtain ⟨digits, exponent⟩ := found
  dsimp only at *
  have power : (0 : ℚ) < 10 ^ exponent := by positivity
  refine inside.imp (fun holds => ?_) fun last => ?_
  · refine (holds_bounds (f.interval_den_pos word) holds).2.trans (le_of_eq ?_)
    rw [interval_high, interval_den, number, step]
    push_cast
    field_simp
    ring
  · rw [interval_number] at below
    have scaled : (digits : ℚ) * 10 ^ exponent ≤ f.number word + 10 ^ exponent := by
      calc
        (digits : ℚ) * 10 ^ exponent
          ≤ (f.number word / 10 ^ exponent + 1) * 10 ^ exponent :=
            mul_le_mul_of_nonneg_right below power.le
        _ = f.number word + 10 ^ exponent := by field_simp
    have small : (10 : ℚ) ^ exponent ≤ f.number word * (1 / 10 ^ 17) := by
      have split : (10 : ℚ) ^ exponent = 10 ^ leading * (1 / 10 ^ 17) := by
        rw [last, zpow_sub₀ (by norm_num), div_eq_mul_one_div]
        rfl
      rw [split]
      exact mul_le_mul_of_nonneg_right low (by positivity)
    linarith

end BinaryFormat

end NodeHarness.Number
