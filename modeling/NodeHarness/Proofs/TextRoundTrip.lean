import NodeHarness.Json.Printer
import NodeHarness.Json.Reading
import NodeHarness.Proofs.Utf8RoundTrip

/-! Printed texts are read back. A character is printed as itself, by a short escape or by its
code, and each of these is scanned as one piece and stands for that character again. -/
namespace NodeHarness.Json

open Text.Utf8 (encodeChars encodeChars_append encodeChars_cons encodeChar_ascii)

/-- A byte that stands for itself inside a text. -/
def Unescaped (b : UInt8) : Prop := b ≠ 0x22 ∧ b ≠ 0x5c ∧ ¬ b < 0x20

/-- The bytes that a character of a text is printed as. -/
inductive EscapedAs (c : Char) : List UInt8 → Prop
  | plain : (∀ b ∈ String.utf8EncodeChar c, Unescaped b) → EscapedAs c (String.utf8EncodeChar c)
  | short {e b : UInt8} : shortEscape? e = some b → e ≠ 0x75 → String.utf8EncodeChar c = [b] →
    EscapedAs c [0x5c, e]
  | code {high low : UInt8} {n : Nat} : hex4? 0x30 0x30 high low = some n → n < 32 →
    Char.ofNat n = c → EscapedAs c [0x5c, 0x75, 0x30, 0x30, high, low]

theorem unescaped_high {c : Char} (high : 128 ≤ c.toNat) :
    ∀ b ∈ String.utf8EncodeChar c, Unescaped b := by
  have apart {n : Nat} (low : 128 ≤ n) (top : n < 256) : Unescaped (UInt8.ofNat n) := by
    have value : (UInt8.ofNat n).toNat = n := Text.Utf8.toNat_ofNat top
    simp only [Unescaped, ne_eq, ← UInt8.toNat_inj, UInt8.lt_iff_toNat_lt, value, UInt8.reduceToNat]
    omega
  have valid : c.val.toNat < 0xd800 ∨ 0xdfff < c.val.toNat ∧ c.val.toNat < 0x110000 := c.valid
  change 128 ≤ c.val.toNat at high
  rw [String.utf8EncodeChar.eq_1]
  generalize c.val.toNat = v at valid high ⊢
  split
  · omega
  split
  · simp only [List.mem_cons, List.not_mem_nil, or_false, forall_eq_or_imp, forall_eq]
    exact ⟨apart (by omega) (by omega), apart (by omega) (by omega)⟩
  split
  · simp only [List.mem_cons, List.not_mem_nil, or_false, forall_eq_or_imp, forall_eq]
    exact ⟨apart (by omega) (by omega), apart (by omega) (by omega), apart (by omega) (by omega)⟩
  · simp only [List.mem_cons, List.not_mem_nil, or_false, forall_eq_or_imp, forall_eq]
    exact ⟨apart (by omega) (by omega), apart (by omega) (by omega), apart (by omega) (by omega),
      apart (by omega) (by omega)⟩

theorem hexValue?_digit : ∀ n < 16, hexValue? (UInt8.ofNat (hexDigit n).toNat) = some n := by decide

theorem hexDigit_ascii : ∀ n < 16, (hexDigit n).toNat < 128 := by decide

theorem unescaped_low {c : Char} (ascii : c.toNat < 128) (unquoted : c ≠ '"') (straight : c ≠ '\\')
    (printable : ¬ c.toNat < 0x20) : ∀ b ∈ String.utf8EncodeChar c, Unescaped b := by
  intro b member
  rw [encodeChar_ascii ascii, List.mem_singleton] at member
  have value : (UInt8.ofNat c.toNat).toNat = c.toNat := Text.Utf8.toNat_ofNat (by omega)
  have quote : c.toNat ≠ 34 := fun same => unquoted (Char.toNat_inj.mp same)
  have backslash : c.toNat ≠ 92 := fun same => straight (Char.toNat_inj.mp same)
  rw [member]
  simp only [Unescaped, ne_eq, ← UInt8.toNat_inj, UInt8.lt_iff_toNat_lt, value, UInt8.reduceToNat]
  exact ⟨quote, backslash, printable⟩

theorem escaped_code {c : Char} (control : c.toNat < 0x20) :
    EscapedAs c (encodeChars
      ['\\', 'u', '0', '0', hexDigit (c.toNat / 16), hexDigit (c.toNat % 16)]) := by
  have high : c.toNat / 16 < 16 := by omega
  have low : c.toNat % 16 < 16 := by omega
  have bytes : encodeChars
      ['\\', 'u', '0', '0', hexDigit (c.toNat / 16), hexDigit (c.toNat % 16)] =
      [0x5c, 0x75, 0x30, 0x30, UInt8.ofNat (hexDigit (c.toNat / 16)).toNat,
        UInt8.ofNat (hexDigit (c.toNat % 16)).toNat] := by
    simp only [encodeChars_cons, encodeChar_ascii (hexDigit_ascii _ high),
      encodeChar_ascii (hexDigit_ascii _ low)]
    rfl
  have value : hex4? 0x30 0x30 (UInt8.ofNat (hexDigit (c.toNat / 16)).toNat)
      (UInt8.ofNat (hexDigit (c.toNat % 16)).toNat) = some c.toNat := by
    have zero : hexValue? 0x30 = some 0 := rfl
    simp only [hex4?, zero, hexValue?_digit _ high, hexValue?_digit _ low]
    change some (((0 * 16 + 0) * 16 + c.toNat / 16) * 16 + c.toNat % 16) = some c.toNat
    congr 1
    omega
  rw [bytes]
  exact .code value control (Char.ofNat_toNat c)

theorem escape_as (c : Char) : EscapedAs c (encodeChars (escape c)) := by
  unfold escape
  split
  · subst c
    exact .short (b := 0x22) rfl (by decide) rfl
  rename_i unquoted
  split
  · subst c
    exact .short (b := 0x5c) rfl (by decide) rfl
  rename_i straight
  split
  · subst c
    exact .short (b := 0x08) rfl (by decide) rfl
  split
  · subst c
    exact .short (b := 0x0c) rfl (by decide) rfl
  split
  · subst c
    exact .short (b := 0x0a) rfl (by decide) rfl
  split
  · subst c
    exact .short (b := 0x0d) rfl (by decide) rfl
  split
  · subst c
    exact .short (b := 0x09) rfl (by decide) rfl
  split
  · rename_i control
    exact escaped_code control
  · rename_i printable
    have single : encodeChars [c] = String.utf8EncodeChar c := by
      rw [encodeChars_cons, Text.Utf8.encodeChars_nil, List.append_nil]
    rw [single]
    by_cases ascii : c.toNat < 128
    · exact .plain (unescaped_low ascii unquoted straight printable)
    · exact .plain (unescaped_high (by omega))

section Scanning

variable {c : Char} {bytes : List UInt8} (seen rest : List UInt8)

theorem scanText_plain {b : UInt8} (plain : Unescaped b) :
    scanText seen (b :: rest) = scanText (b :: seen) rest := by
  obtain ⟨quote, backslash, control⟩ := plain
  rw [scanText, if_neg quote, if_neg backslash, if_neg control]
  -- a byte that is no backslash begins no escape
  all_goals
    intros
    contradiction

theorem scanText_all {bs : List UInt8} (plain : ∀ b ∈ bs, Unescaped b) :
    scanText seen (bs ++ rest) = scanText (bs.reverse ++ seen) rest := by
  induction bs generalizing seen with
  | nil => rfl
  | cons b bs ih =>
    rw [List.cons_append, scanText_plain _ _ (plain b List.mem_cons_self),
      ih _ fun b member => plain b (List.mem_cons_of_mem _ member)]
    simp

theorem scanText_escaped (escaped : EscapedAs c bytes) :
    scanText seen (bytes ++ rest) = scanText (bytes.reverse ++ seen) rest := by
  cases escaped with
  | plain plain => exact scanText_all seen rest plain
  | @short e b found other _ =>
    change scanText seen (0x5c :: e :: rest) = scanText (e :: 0x5c :: seen) rest
    rw [scanText, if_neg other, if_pos (by rw [found, Option.isSome_some])]
    intros
    contradiction
  | @code high low n found _ _ =>
    change scanText seen (0x5c :: 0x75 :: 0x30 :: 0x30 :: high :: low :: rest) =
      scanText (low :: high :: 0x30 :: 0x30 :: 0x75 :: 0x5c :: seen) rest
    rw [scanText, found]
    rfl

/-- The bytes of a text between its quotes. -/
def escapedBytes (cs : List Char) : List UInt8 := encodeChars (cs.flatMap escape)

theorem escapedBytes_cons (c : Char) (cs : List Char) :
    escapedBytes (c :: cs) = encodeChars (escape c) ++ escapedBytes cs := by
  rw [escapedBytes, List.flatMap_cons, encodeChars_append]
  rfl

theorem scanText_escapedBytes (cs : List Char) :
    scanText seen (escapedBytes cs ++ 0x22 :: rest) =
      (⟨seen.reverse ++ escapedBytes cs, .closed⟩, some rest) := by
  induction cs generalizing seen with
  | nil => simp [escapedBytes, scanText]
  | cons c cs ih =>
    rw [escapedBytes_cons, List.append_assoc, scanText_escaped _ _ (escape_as c), ih]
    simp

theorem unescape_plain {finish : TextEnd} {read : List UInt8} {b : UInt8} (plain : Unescaped b) :
    QuotedText.unescape finish read (b :: rest) = QuotedText.unescape finish (b :: read) rest := by
  obtain ⟨_, backslash, _⟩ := plain
  rw [QuotedText.unescape]
  all_goals
    intros
    contradiction

theorem unescape_all {finish : TextEnd} {read bs : List UInt8} (plain : ∀ b ∈ bs, Unescaped b) :
    QuotedText.unescape finish read (bs ++ rest) =
      QuotedText.unescape finish (bs.reverse ++ read) rest := by
  induction bs generalizing read with
  | nil => rfl
  | cons b bs ih =>
    rw [List.cons_append, unescape_plain _ (plain b List.mem_cons_self),
      ih fun b member => plain b (List.mem_cons_of_mem _ member)]
    simp

theorem unescape_escaped {finish : TextEnd} {read : List UInt8} (escaped : EscapedAs c bytes) :
    QuotedText.unescape finish read (bytes ++ rest) =
      QuotedText.unescape finish ((String.utf8EncodeChar c).reverse ++ read) rest := by
  cases escaped with
  | plain plain => exact unescape_all rest plain
  | @short e b found other single =>
    have value : (shortEscape? e).getD e = b := by rw [found, Option.getD_some]
    change QuotedText.unescape finish read (0x5c :: e :: rest) = _
    rw [QuotedText.unescape, value, single]
    · rfl
    · intros
      contradiction
  | @code high low n found control same =>
    change QuotedText.unescape finish read (0x5c :: 0x75 :: 0x30 :: 0x30 :: high :: low :: rest) = _
    have notLow : QuotedText.utf16Low n = false := by
      simp only [QuotedText.utf16Low, Bool.and_eq_false_iff, decide_eq_false_iff_not]
      omega
    have notHigh : QuotedText.utf16High n = false := by
      simp only [QuotedText.utf16High, Bool.and_eq_false_iff, decide_eq_false_iff_not]
      omega
    rw [QuotedText.unescape.eq_def]
    simp only [found, Option.getD_some, notLow, notHigh, Bool.false_eq_true, if_false,
      QuotedText.pushChar, same]

theorem unescape_escapedBytes {read : List UInt8} (cs : List Char) :
    QuotedText.unescape .closed read (escapedBytes cs) = .ok (read.reverse ++ encodeChars cs) := by
  induction cs generalizing read with
  | nil => simp [escapedBytes, QuotedText.unescape, QuotedText.skim]
  | cons c cs ih =>
    rw [escapedBytes_cons, unescape_escaped _ (escape_as c), ih, encodeChars_cons]
    simp

/-- A text between quotes stands for the text it was printed from. -/
theorem decode_escapedBytes (s : String) :
    QuotedText.decode ⟨escapedBytes s.toList, .closed⟩ = .ok s := by
  have decoded : Text.Utf8.decode? (encodeChars s.toList) = some s := Text.Utf8.decode?_encode s
  simp only [QuotedText.decode, unescape_escapedBytes, List.reverse_nil, List.nil_append, decoded]

end Scanning

end NodeHarness.Json
