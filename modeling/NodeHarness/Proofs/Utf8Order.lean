import Mathlib.Data.String.Basic
import NodeHarness.Proofs.Utf8RoundTrip

/-! Texts are in the order of their bytes. The first byte of a character tells how many there are,
and greater characters have no fewer; of as many bytes, the first that differs decides. -/
namespace NodeHarness.Text.Utf8

theorem ofNat_lt {m n : Nat} (small : m < 256) (large : n < 256) :
    UInt8.ofNat m < UInt8.ofNat n ↔ m < n := by
  rw [UInt8.lt_iff_toNat_lt, UInt8.toNat_ofNat_of_lt' small, UInt8.toNat_ofNat_of_lt' large]

theorem ofNat_inj {m n : Nat} (small : m < 256) (large : n < 256) :
    UInt8.ofNat m = UInt8.ofNat n ↔ m = n := by
  rw [← UInt8.toNat_inj, UInt8.toNat_ofNat_of_lt' small, UInt8.toNat_ofNat_of_lt' large]

/-- The first byte decides, and where it is the same, those behind it. -/
theorem cons_lt {m n : Nat} (small : m < 256) (large : n < 256) {as bs : List UInt8} :
    UInt8.ofNat m :: as < UInt8.ofNat n :: bs ↔ m < n ∨ m = n ∧ as < bs := by
  rw [List.cons_lt_cons_iff, ofNat_lt small large, ofNat_inj small large]

/-- Of two numbers the lower one has the lower front, or the same front and the lower last digit. -/
theorem lt_digits {v w : Nat} (less : v < w) :
    v / 64 < w / 64 ∨ v / 64 = w / 64 ∧ v % 64 < w % 64 := by
  omega

/-- The lower character has the lower bytes, whatever follows. -/
theorem encodeChar_lt {c d : Char} (below : c < d) (cs ds : List UInt8) :
    String.utf8EncodeChar c ++ cs < String.utf8EncodeChar d ++ ds := by
  have less : c.val.toNat < d.val.toNat := below
  have few : d.val.toNat < 0x110000 := by
    rcases d.valid with low | high
    · exact lt_trans low (by decide)
    · exact high.2
  rw [String.utf8EncodeChar.eq_1, String.utf8EncodeChar.eq_1]
  generalize c.val.toNat = v at less ⊢
  generalize d.val.toNat = w at less few ⊢
  have last := lt_digits less
  have third (front : v / 64 < w / 64) := lt_digits front
  have second (front : v / 64 / 64 < w / 64 / 64) := lt_digits front
  simp only [Nat.div_div_eq_div_mul, Nat.reduceMul] at third second
  have first : v / 262144 % 8 = v / 262144 ∧ w / 262144 % 8 = w / 262144 := by omega
  -- the lead byte decides, and in texts of the same length the digits behind it
  split_ifs <;> simp only [List.cons_append, List.nil_append] <;>
    repeat' rw [cons_lt (by omega) (by omega)]
  all_goals omega

theorem encodeChars_lt {cs ds : List Char} (below : cs < ds) : encodeChars cs < encodeChars ds := by
  induction below with
  | @nil d ds =>
    rw [encodeChars_cons]
    have some := String.utf8EncodeChar_ne_nil (c := d)
    cases bytes : String.utf8EncodeChar d with
    | nil => exact absurd bytes some
    | cons b bs => exact List.nil_lt_cons _ _
  | rel below =>
    rw [encodeChars_cons, encodeChars_cons]
    exact encodeChar_lt below _ _
  | cons _ ih =>
    rw [encodeChars_cons, encodeChars_cons]
    exact List.append_left_lt ih

/-- The order of texts is the order of their bytes. -/
theorem encode_lt {s t : String} (below : s < t) : encode s < encode t := encodeChars_lt below

end NodeHarness.Text.Utf8
