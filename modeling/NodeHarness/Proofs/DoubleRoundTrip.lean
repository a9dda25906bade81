import Mathlib.Data.List.TakeWhile
import NodeHarness.Proofs.DoubleRange
import NodeHarness.Proofs.NumberRoundTrip

/-! Printed doubles are read back as doubles. The shortest digits are written with a point, with an
exponent or with both; every such text is a numeral whose digits fit the significand. -/
namespace NodeHarness.Json.Numeral

open Number
open Text.Decimal (Digits digits_append digits_digits digits_first digits_zeros ofDigitChars_append
  ofDigitChars_lt ofDigitChars_zeros value_digits)

/-- Digits without zeros at either end, and how they came from a number. -/
structure Normal (n : Nat) (exponent : Int) (cs : List Char) (leading : Int) : Prop where
  digits : Digits cs
  first : ∀ rest, cs ≠ '0' :: rest
  zeros : ∃ zeros : Nat, Nat.ofDigitChars 10 cs 0 * 10 ^ zeros = n ∧
    leading = exponent + zeros + cs.length - 1

theorem dropZeros_append (cs : List Char) :
    ∃ count, normalDigits.dropZeros cs ++ List.replicate count '0' = cs := by
  refine ⟨(cs.reverse.takeWhile (· = '0')).length, ?_⟩
  have zeros : (cs.reverse.takeWhile (· = '0')).reverse =
      List.replicate (cs.reverse.takeWhile (· = '0')).length '0' := by
    rw [List.eq_replicate_iff]
    refine ⟨List.length_reverse, fun c member => ?_⟩
    simpa using List.mem_takeWhile_imp (List.mem_reverse.mp member)
  rw [← zeros, normalDigits.dropZeros, ← List.reverse_append, List.takeWhile_append_dropWhile,
    List.reverse_reverse]

theorem normalDigits_normal {n : Nat} (positive : 0 < n) (exponent : Int) :
    Normal n exponent (normalDigits n exponent).1 (normalDigits n exponent).2 := by
  obtain ⟨count, cut⟩ := dropZeros_append (Text.Decimal.digits n)
  have all := (digits_digits n).2
  have first := digits_first positive
  have whole := value_digits n
  simp only [normalDigits]
  generalize normalDigits.dropZeros (Text.Decimal.digits n) = cs at cut ⊢
  rw [← cut] at all first whole ⊢
  rw [ofDigitChars_append, ofDigitChars_zeros] at whole
  refine ⟨⟨?_, fun c member => all c (List.mem_append_left _ member)⟩, ?_, count, whole, ?_⟩
  · rintro rfl
    cases count with
    | zero => simp [Text.Decimal.digits] at cut
    | succ count => exact first (List.replicate count '0') (by simp [List.replicate_succ])
  · rintro rest rfl
    exact first _ List.cons_append
  · simp
    omega

/-- All digits but the first, if there are more. -/
def behindPoint : List Char → Option (List Char)
  | _ :: d :: rest => some (d :: rest)
  | _ => none

def scientific (negative : Bool) (cs : List Char) (leading : Int) : Numeral :=
  ⟨negative, cs.take 1, behindPoint cs,
    some (decide (leading < 0), Text.Decimal.digits leading.natAbs)⟩

/-- The numeral that digits are written as, with a point where their place allows it. -/
def ofDigits (p : Positional) (negative : Bool) (cs : List Char) (leading : Int) : Numeral :=
  if p.smallest ≤ leading ∧ leading ≤ p.largest then
    if leading < 0 then
      ⟨negative, ['0'], some (List.replicate (-leading - 1).toNat '0' ++ cs), none⟩
    else
      let whole := leading.toNat + 1
      if cs.length ≤ whole then
        ⟨negative, cs ++ List.replicate (whole - cs.length) '0', some ['0'], none⟩
      else ⟨negative, cs.take whole, some (cs.drop whole), none⟩
  else scientific negative cs leading

variable {p : Positional} {negative : Bool} {cs : List Char} {leading : Int}

theorem unsigned_ofDigits (some : cs ≠ []) :
    (ofDigits p negative cs leading).unsigned = writeDigits p cs leading := by
  unfold ofDigits writeDigits
  split
  · split
    · simp [unsigned, fractionChars, exponentChars]
    · dsimp only
      split <;> simp [unsigned, fractionChars, exponentChars]
  · obtain ⟨c, rest, rfl⟩ := List.exists_cons_of_ne_nil some
    cases rest <;> by_cases below : leading < 0 <;>
      simp [unsigned, fractionChars, exponentChars, scientific, behindPoint, below]

theorem negative_ofDigits : (ofDigits p negative cs leading).negative = negative := by
  unfold ofDigits
  split
  · split
    · rfl
    · dsimp only
      split <;> rfl
  · rfl

theorem formed_point {whole digits : List Char} (first : Digits whole)
    (leading : ∀ c rest, whole = '0' :: c :: rest → False) (behind : Digits digits) :
    WellFormed ⟨negative, whole, some digits, none⟩ where
  whole := first
  leading := leading
  fraction := by
    rintro _ ⟨⟩
    exact behind
  exponent := by simp

theorem formed_scientific {c : Char} {rest : List Char} (nonzero : c ≠ '0')
    (all : ∀ d ∈ c :: rest, d.isDigit = true) :
    (scientific negative (c :: rest) leading).WellFormed where
  whole := ⟨List.cons_ne_nil c [], fun d member => all d (List.mem_of_mem_take member)⟩
  leading := fun _ _ written => nonzero (List.cons.inj written).1
  fraction := by
    intro digits found
    cases rest with
    | nil => cases found
    | cons d rest =>
      cases found
      exact ⟨List.cons_ne_nil d rest, fun e member => all e (List.mem_cons_of_mem c member)⟩
  exponent := by
    rintro part ⟨⟩
    exact digits_digits _

theorem formed_ofDigits {n : Nat} {exponent : Int} (normal : Normal n exponent cs leading) :
    (ofDigits p negative cs leading).WellFormed := by
  obtain ⟨⟨some, all⟩, first, _⟩ := normal
  obtain ⟨c, rest, rfl⟩ := List.exists_cons_of_ne_nil some
  have nonzero : c ≠ '0' := by
    rintro rfl
    exact first rest rfl
  have zero : Digits ['0'] := ⟨by simp, by simp⟩
  unfold ofDigits
  split
  · split
    · exact formed_point zero (by simp) (digits_append (.inr some) (digits_zeros _) all)
    · dsimp only
      split
      · refine formed_point (digits_append (.inl some) all (digits_zeros _)) ?_ zero
        exact fun _ _ written => nonzero (List.cons.inj written).1
      · rename_i short
        refine formed_point ⟨by simp, fun d member => all d (List.mem_of_mem_take member)⟩ ?_ ?_
        · intro d later written
          rw [List.take_succ_cons] at written
          exact nonzero (List.cons.inj written).1
        · exact ⟨by simpa [List.drop_eq_nil_iff] using short,
            fun d member => all d (List.mem_of_mem_drop member)⟩
  · exact formed_scientific nonzero all

/-- Digits that stand for what a shortest text can stand for. -/
def Printable (n : Nat) (exponent : Int) : Prop :=
  n ≤ 10 ^ 18 ∧
    ((n : ℚ) * 10 ^ exponent ≤ largestPrinted ∨ n = 17976931348623157 ∧ exponent = 292)

theorem significand_le {n : Nat} {exponent : Int} (normal : Normal n exponent cs leading) :
    Nat.ofDigitChars 10 cs 0 ≤ n := by
  obtain ⟨zeros, value, _⟩ := normal.zeros
  rw [← value]
  exact Nat.le_mul_of_pos_right _ (by positivity)

theorem scale_printable {n : Nat} {exponent : Int} (normal : Normal n exponent cs leading)
    (printable : Printable n exponent) :
    (NumberText.scale (Nat.ofDigitChars 10 cs 0) (leading - (cs.length - 1))).isSome = true := by
  obtain ⟨few, large⟩ := printable
  have small := significand_le normal
  obtain ⟨zeros, value, place⟩ := normal.zeros
  have total : leading - (cs.length - 1) = exponent + zeros := by omega
  rw [total]
  rcases lt_or_ge (exponent + zeros) 0 with below | above
  · exact NumberText.scale_below below
  obtain ⟨e, same⟩ := Int.eq_ofNat_of_zero_le above
  rw [same]
  rcases large with bound | ⟨rfl, rfl⟩
  · refine NumberText.scale_isSome (small.trans few) ?_
    have product : ((Nat.ofDigitChars 10 cs 0 * 10 ^ e : Nat) : ℚ) = n * 10 ^ exponent := by
      rw [← value, Nat.cast_mul, Nat.cast_mul, Nat.cast_pow, Nat.cast_pow, mul_assoc,
        ← zpow_natCast, ← zpow_natCast, ← same, zpow_add₀ (by norm_num)]
      push_cast
      ring
    rw [← product] at bound
    exact_mod_cast bound
  · -- the largest double's digits have no zero at their end
    have none : zeros = 0 := by
      cases zeros with
      | zero => rfl
      | succ zeros =>
        rw [Nat.pow_succ, ← Nat.mul_assoc] at value
        omega
    subst none
    obtain rfl : e = 292 := by omega
    rw [Nat.pow_zero, Nat.mul_one] at value
    rw [value]
    exact NumberText.scale_last

theorem value_scaled {m : Numeral} (fits : m.significand < Text.Decimal.words64)
    (floating : m.fraction.isSome = true ∨ m.exponent.isSome = true)
    (scaled : (NumberText.scale m.significand m.scale).isSome = true) :
    ∃ word, m.outline.value = .ok (.floating ⟨m.negative, word⟩) := by
  obtain ⟨word, read⟩ := Option.isSome_iff_exists.mp scaled
  exact ⟨word, value_floating fits floating read⟩

theorem significand_scientific (some : cs ≠ []) :
    (scientific negative cs leading).significand = Nat.ofDigitChars 10 cs 0 := by
  obtain ⟨c, rest, rfl⟩ := List.exists_cons_of_ne_nil some
  rw [significand, scientific]
  cases rest <;> rfl

theorem scale_scientific (some : cs ≠ []) :
    (scientific negative cs leading).scale = leading - (cs.length - 1) := by
  obtain ⟨c, rest, rfl⟩ := List.exists_cons_of_ne_nil some
  have written : (digitValues (Text.Decimal.digits leading.natAbs)).foldl
      (fun n d => n * 10 + d) 0 = leading.natAbs := by
    rw [foldl_digitValues]
    exact value_digits _
  have signed : (if decide (leading < 0) = true then -(leading.natAbs : Int)
      else leading.natAbs) = leading := by
    by_cases below : leading < 0
    · rw [if_pos (decide_eq_true below)]
      omega
    · rw [if_neg (by simpa using below)]
      omega
  have length : ((behindPoint (c :: rest)).getD []).length = rest.length := by
    cases rest <;> rfl
  simp only [scale, outline, scientific, NumberText.exponentValue, Option.map_some, written, signed,
    length, List.length_cons]
  omega

/-- With a point only, a number is scaled down. -/
theorem value_point {m : Numeral} {digits : List Char} (point : m.fraction = some digits)
    (some : digits ≠ []) (plain : m.exponent = none)
    (fits : m.significand < Text.Decimal.words64) :
    ∃ word, m.outline.value = .ok (.floating ⟨m.negative, word⟩) := by
  refine value_scaled fits (.inl (by rw [point, Option.isSome_some])) ?_
  have length : 0 < digits.length := List.length_pos_iff.mpr some
  refine NumberText.scale_below ?_
  simp only [scale, outline, NumberText.exponentValue, plain, point, Option.map_none,
    Option.getD_some]
  omega

theorem significand_below (zeros : Nat) :
    significand ⟨negative, ['0'], some (List.replicate zeros '0' ++ cs), none⟩ =
      Nat.ofDigitChars 10 cs 0 := by
  rw [significand, ofDigitChars_append, Option.getD_some, ofDigitChars_append, ofDigitChars_zeros]
  change Nat.ofDigitChars 10 cs (0 * _) = _
  rw [Nat.zero_mul]

/-- Zeros fill the places in front of the point, and there are few of these. -/
theorem significand_padded {zeros : Nat} (all : ∀ c ∈ cs, c.isDigit = true)
    (few : cs.length + zeros ≤ 16) :
    significand ⟨negative, cs ++ List.replicate zeros '0', some ['0'], none⟩ <
      Text.Decimal.words64 := by
  have digits : ∀ c ∈ cs ++ List.replicate zeros '0' ++ ['0'], c.isDigit = true :=
    (digits_append (.inr (List.cons_ne_nil '0' []))
      (fun c member => (List.mem_append.mp member).elim (all c) (digits_zeros zeros c))
      (digits_zeros 1)).2
  have length : (cs ++ List.replicate zeros '0' ++ ['0']).length ≤ 17 := by
    simp
    omega
  calc
    _ < (0 + 1) * 10 ^ _ := ofDigitChars_lt 0 digits
    _ ≤ 1 * 10 ^ 17 := Nat.mul_le_mul_left _ (Nat.pow_le_pow_right (by decide) length)
    _ ≤ Text.Decimal.words64 := by decide

theorem value_ofDigits {n : Nat} {exponent : Int} (normal : Normal n exponent cs leading)
    (printable : Printable n exponent) :
    ∃ word, (ofDigits .binary64 negative cs leading).outline.value =
      .ok (.floating ⟨negative, word⟩) := by
  have fits : Nat.ofDigitChars 10 cs 0 < Text.Decimal.words64 :=
    ((significand_le normal).trans printable.1).trans_lt (by decide)
  have scaled := scale_printable normal printable
  obtain ⟨some, all⟩ := normal.digits
  unfold ofDigits
  split
  · rename_i positional
    have last : leading ≤ 15 := positional.2
    split
    · refine value_point rfl (by simp [some]) rfl ?_
      rw [significand_below]
      exact fits
    · dsimp only
      split
      · exact value_point rfl (by simp) rfl (significand_padded all (by omega))
      · rename_i long
        refine value_point rfl (by simpa [List.drop_eq_nil_iff] using long) rfl ?_
        rw [significand, Option.getD_some, List.take_append_drop]
        exact fits
  · refine value_scaled ?_ (.inr rfl) ?_
    · rw [significand_scientific some]
      exact fits
    · rw [significand_scientific some, scale_scientific some]
      exact scaled

end NodeHarness.Json.Numeral

namespace NodeHarness

open Number BinaryFormat Json

namespace Number.Floating

/-- The numeral of a double; an infinity has none. -/
def numeral? (x : Floating) : Option Numeral :=
  if binary64.infinity ≤ x.word then none
  else if x.word = 0 then some ⟨x.negative, ['0'], some ['0'], none⟩
  else
    let (digits, exponent) := binary64.shortest x.word
    let (cs, leading) := normalDigits digits exponent
    some (Numeral.ofDigits .binary64 x.negative cs leading)

theorem significand_pos {word : Nat} (some : word ≠ 0) : 0 < binary64.significand word := by
  simp only [significand, Nat.shiftLeft_eq]
  split
  · omega
  · have half : 0 < 1 * 2 ^ (binary64.precision - 1) := by decide
    omega

theorem shortest_printable {word : Nat} (some : word ≠ 0) (finite : word < binary64.infinity) :
    Numeral.Printable (binary64.shortest word).1 (binary64.shortest word).2 := by
  have positive := significand_pos some
  refine ⟨(binary64.shortest_digits positive).2, ?_⟩
  by_cases last : word = binary64.infinity - 1
  · rw [last, shortest_last]
    exact .inr ⟨rfl, rfl⟩
  · exact .inl (shortest_le_largest positive (by omega))

theorem shortest_normal {word : Nat} (some : word ≠ 0) :
    Numeral.Normal (binary64.shortest word).1 (binary64.shortest word).2
      (normalDigits (binary64.shortest word).1 (binary64.shortest word).2).1
      (normalDigits (binary64.shortest word).1 (binary64.shortest word).2).2 :=
  Numeral.normalDigits_normal (binary64.shortest_digits (significand_pos some)).1 _

/-- What the numeral of a double is made of. -/
inductive Writes (x : Floating) : Numeral → Prop
  | zero : Writes x ⟨x.negative, ['0'], some ['0'], none⟩
  | shortest {n : Nat} {exponent leading : Int} {cs : List Char} :
    Numeral.Normal n exponent cs leading → Numeral.Printable n exponent →
    Writes x (Numeral.ofDigits .binary64 x.negative cs leading)

theorem numeral?_writes {x : Floating} {m : Numeral} (written : x.numeral? = some m) :
    x.Writes m := by
  unfold numeral? at written
  split at written
  · cases written
  rename_i finite
  split at written
  · cases written
    exact .zero
  · rename_i nonzero
    cases written
    exact .shortest (shortest_normal nonzero)
      (shortest_printable nonzero (Nat.not_le.mp finite))

theorem chars_eq (x : Floating) :
    x.chars? .binary64 .binary64 = x.numeral?.map Numeral.chars := by
  have signed (cs : List Char) : (if x.negative then ['-'] else []) ++ cs =
      if x.negative then '-' :: cs else cs := by
    cases x.negative <;> rfl
  unfold chars? numeral?
  by_cases infinite : binary64.infinity ≤ x.word
  · rw [if_pos infinite, if_pos infinite]
    rfl
  dsimp only
  rw [if_neg infinite, if_neg infinite, signed, signed]
  by_cases zero : x.word = 0
  · rw [if_pos zero, if_pos zero]
    rfl
  · have some := (shortest_normal zero).digits.1
    rw [if_neg zero, if_neg zero, Option.map_some, Numeral.chars, Numeral.negative_ofDigits,
      Numeral.unsigned_ofDigits some]

theorem Writes.formed {x : Floating} {m : Numeral} (writes : x.Writes m) : m.WellFormed := by
  cases writes with
  | zero => exact Numeral.formed_point ⟨by simp, by simp⟩ (by simp) ⟨by simp, by simp⟩
  | shortest normal _ => exact Numeral.formed_ofDigits normal

/-- A printed double is read as a double. -/
theorem Writes.value {x : Floating} {m : Numeral} (writes : x.Writes m) :
    ∃ word, m.outline.value = .ok (.floating ⟨x.negative, word⟩) := by
  cases writes with
  | zero =>
    have fits : 0 < Text.Decimal.words64 := by decide
    exact Numeral.value_point rfl (by simp) rfl fits
  | shortest normal printable => exact Numeral.value_ofDigits normal printable

end Number.Floating

end NodeHarness
