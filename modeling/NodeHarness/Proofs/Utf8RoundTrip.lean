import NodeHarness.Text.Utf8

/-! Reading what was encoded. The machine takes the bytes of a character one after the other and
ends with the character; so the bytes of a text are read as that text. -/
namespace NodeHarness.Text.Utf8

section Steps

variable {found : List (Option Char)} {x : Nat}

theorem toNat_ofNat {n : Nat} (small : n < 256) : (UInt8.ofNat n).toNat = n :=
  UInt8.toNat_ofNat_of_lt' small

theorem step_one (small : x < 128) :
    Scan.step ⟨none, found⟩ (UInt8.ofNat x) = ⟨none, some (Char.ofNat x) :: found⟩ := by
  have value : (UInt8.ofNat x).toNat = x := toNat_ofNat (by omega)
  simp only [Scan.step, Scan.start, first, UInt8.lt_iff_toNat_lt, value, UInt8.reduceToNat, small,
    if_true]

/-- The smallest lead byte of two would begin a character that fits one. -/
theorem step_two (low : 2 ≤ x) (high : x < 32) :
    Scan.step ⟨none, found⟩ (UInt8.ofNat (x + 192)) = ⟨some ⟨x, 1, 0x80, 0xbf⟩, found⟩ := by
  have value : (UInt8.ofNat (x + 192)).toNat = x + 192 := toNat_ofNat (by omega)
  have bits : (x + 192) % 32 = x := by omega
  simp only [Scan.step, Scan.start, first, UInt8.lt_iff_toNat_lt, value, bits, UInt8.reduceToNat]
  rw [if_neg (by omega), if_neg (by omega), if_pos (by omega)]

theorem step_three (high : x < 16) :
    Scan.step ⟨none, found⟩ (UInt8.ofNat (x + 224)) =
      ⟨some ⟨x, 2, if x = 0 then 0xa0 else 0x80, if x = 13 then 0x9f else 0xbf⟩, found⟩ := by
  have value : (UInt8.ofNat (x + 224)).toNat = x + 224 := toNat_ofNat (by omega)
  have bits : (x + 224) % 16 = x := by omega
  simp only [Scan.step, Scan.start, first, UInt8.lt_iff_toNat_lt, ← UInt8.toNat_inj, value, bits,
    UInt8.reduceToNat]
  rw [if_neg (by omega), if_neg (by omega), if_neg (by omega), if_pos (by omega)]
  simp

theorem step_four (high : x < 5) :
    Scan.step ⟨none, found⟩ (UInt8.ofNat (x + 240)) =
      ⟨some ⟨x, 3, if x = 0 then 0x90 else 0x80, if x = 4 then 0x8f else 0xbf⟩, found⟩ := by
  have value : (UInt8.ofNat (x + 240)).toNat = x + 240 := toNat_ofNat (by omega)
  have bits : (x + 240) % 8 = x := by omega
  simp only [Scan.step, Scan.start, first, UInt8.lt_iff_toNat_lt, ← UInt8.toNat_inj, value, bits,
    UInt8.reduceToNat]
  rw [if_neg (by omega), if_neg (by omega), if_neg (by omega), if_neg (by omega),
    if_pos (by omega)]
  simp

variable {value : Nat} {low high : UInt8} (small : x < 64) (above : low.toNat ≤ x + 128)
  (below : x + 128 ≤ high.toNat)

include small above below

theorem step_last :
    Scan.step ⟨some ⟨value, 1, low, high⟩, found⟩ (UInt8.ofNat (x + 128)) =
      ⟨none, some (Char.ofNat (value * 64 + x)) :: found⟩ := by
  have byte : (UInt8.ofNat (x + 128)).toNat = x + 128 := toNat_ofNat (by omega)
  have bits : (x + 128) % 64 = x := by omega
  simp only [Scan.step, UInt8.le_iff_toNat_le, byte, bits, above, below, and_self, Nat.le_refl,
    if_true]

theorem step_next {missing : Nat} :
    Scan.step ⟨some ⟨value, missing + 2, low, high⟩, found⟩ (UInt8.ofNat (x + 128)) =
      ⟨some ⟨value * 64 + x, missing + 1, 0x80, 0xbf⟩, found⟩ := by
  have byte : (UInt8.ofNat (x + 128)).toNat = x + 128 := toNat_ofNat (by omega)
  have bits : (x + 128) % 64 = x := by omega
  simp only [Scan.step, UInt8.le_iff_toNat_le, byte, bits, above, below, and_self, if_true]
  rw [if_neg (by omega)]
  rfl

end Steps

/-! The bytes of a character, by how many there are. Only the second byte has bounds of its own:
they keep out what a shorter form or a surrogate would be. -/
section Characters

variable {v : Nat} (found : List (Option Char))

theorem later_small (n : Nat) : n % 64 < 64 := Nat.mod_lt n (by decide)

theorem later_above (n : Nat) : (0x80 : UInt8).toNat ≤ n % 64 + 128 := Nat.le_add_left 128 (n % 64)

theorem later_below (n : Nat) : n % 64 + 128 ≤ (0xbf : UInt8).toNat := by
  have small := later_small n
  change n % 64 + 128 ≤ 191
  omega

theorem foldl_two (more : 0x7f < v) (few : v ≤ 0x7ff) :
    [UInt8.ofNat (v / 64 % 32 + 192), UInt8.ofNat (v % 64 + 128)].foldl Scan.step ⟨none, found⟩ =
      ⟨none, some (Char.ofNat v) :: found⟩ := by
  have lead : v / 64 % 32 = v / 64 := Nat.mod_eq_of_lt (by omega)
  have value : v / 64 * 64 + v % 64 = v := by omega
  rw [List.foldl_cons, lead, step_two (by omega) (by omega), List.foldl_cons,
    step_last (later_small v) (later_above v) (later_below v), value, List.foldl_nil]

theorem foldl_three (more : 0x7ff < v) (few : v ≤ 0xffff) (valid : v < 0xd800 ∨ 0xdfff < v) :
    [UInt8.ofNat (v / 4096 % 16 + 224), UInt8.ofNat (v / 64 % 64 + 128),
      UInt8.ofNat (v % 64 + 128)].foldl Scan.step ⟨none, found⟩ =
      ⟨none, some (Char.ofNat v) :: found⟩ := by
  have lead : v / 4096 % 16 = v / 4096 := Nat.mod_eq_of_lt (by omega)
  have value : (v / 4096 * 64 + v / 64 % 64) * 64 + v % 64 = v := by omega
  have low : (if v / 4096 = 0 then 0xa0 else 0x80 : UInt8).toNat ≤ v / 64 % 64 + 128 := by
    split
    · change 160 ≤ _
      omega
    · exact later_above _
  have high : v / 64 % 64 + 128 ≤ (if v / 4096 = 13 then 0x9f else 0xbf : UInt8).toNat := by
    split
    · change _ ≤ 159
      omega
    · exact later_below _
  rw [List.foldl_cons, lead, step_three (by omega), List.foldl_cons,
    step_next (later_small _) low high, List.foldl_cons,
    step_last (later_small v) (later_above v) (later_below v), value, List.foldl_nil]

theorem foldl_four (more : 0xffff < v) (valid : v < 0x110000) :
    [UInt8.ofNat (v / 262144 % 8 + 240), UInt8.ofNat (v / 4096 % 64 + 128),
      UInt8.ofNat (v / 64 % 64 + 128), UInt8.ofNat (v % 64 + 128)].foldl Scan.step ⟨none, found⟩ =
      ⟨none, some (Char.ofNat v) :: found⟩ := by
  have lead : v / 262144 % 8 = v / 262144 := Nat.mod_eq_of_lt (by omega)
  have value : ((v / 262144 * 64 + v / 4096 % 64) * 64 + v / 64 % 64) * 64 + v % 64 = v := by
    omega
  have low : (if v / 262144 = 0 then 0x90 else 0x80 : UInt8).toNat ≤ v / 4096 % 64 + 128 := by
    split
    · change 144 ≤ _
      omega
    · exact later_above _
  have high : v / 4096 % 64 + 128 ≤ (if v / 262144 = 4 then 0x8f else 0xbf : UInt8).toNat := by
    split
    · change _ ≤ 143
      omega
    · exact later_below _
  rw [List.foldl_cons, lead, step_four (by omega), List.foldl_cons,
    step_next (later_small _) low high, List.foldl_cons,
    step_next (later_small _) (later_above _) (later_below _), List.foldl_cons,
    step_last (later_small v) (later_above v) (later_below v), value, List.foldl_nil]

end Characters

theorem foldl_encodeChar (c : Char) (found : List (Option Char)) :
    (String.utf8EncodeChar c).foldl Scan.step ⟨none, found⟩ = ⟨none, some c :: found⟩ := by
  have valid : c.val.toNat < 0xd800 ∨ 0xdfff < c.val.toNat ∧ c.val.toNat < 0x110000 := c.valid
  have whole : Char.ofNat c.val.toNat = c := Char.ofNat_toNat c
  rw [String.utf8EncodeChar.eq_1]
  generalize c.val.toNat = v at valid whole ⊢
  rw [← whole]
  split
  · rw [List.foldl_cons, step_one (by omega), List.foldl_nil]
  split
  · exact foldl_two found (by omega) (by omega)
  split
  · exact foldl_three found (by omega) (by omega) (by omega)
  · exact foldl_four found (by omega) (by omega)

@[simp] theorem encodeChars_nil : encodeChars [] = [] := rfl

@[simp] theorem encodeChars_append (as bs : List Char) :
    encodeChars (as ++ bs) = encodeChars as ++ encodeChars bs := List.flatMap_append

theorem encodeChars_cons (c : Char) (cs : List Char) :
    encodeChars (c :: cs) = String.utf8EncodeChar c ++ encodeChars cs := List.flatMap_cons

theorem encodeChar_ascii {c : Char} (ascii : c.toNat < 128) :
    String.utf8EncodeChar c = [UInt8.ofNat c.toNat] := by
  have one : c.val.toNat ≤ 0x7f := Nat.le_of_lt_succ ascii
  rw [String.utf8EncodeChar.eq_1, if_pos one]
  rfl

theorem foldl_encodeChars (cs : List Char) (found : List (Option Char)) :
    (encodeChars cs).foldl Scan.step ⟨none, found⟩ = ⟨none, (cs.map some).reverse ++ found⟩ := by
  induction cs generalizing found with
  | nil => rfl
  | cons c cs ih =>
    rw [encodeChars_cons, List.foldl_append, foldl_encodeChar, ih]
    simp

theorem scan_encodeChars (cs : List Char) : scan (encodeChars cs) = cs.map some := by
  rw [scan, foldl_encodeChars]
  simp [Scan.finish]

theorem decode?_encode (s : String) : decode? (encode s) = some s := by
  have all : (s.toList.map some).all Option.isSome = true := by simp
  simp [decode?, decodeChars?, encode, scan_encodeChars, all]

end NodeHarness.Text.Utf8
