import NodeHarness.Json.Reading
import NodeHarness.Proofs.DecimalText

/-! The two spellings of a 64-bit number. What is read as a number is a plain integer that fits, or
a text with such a number in it: one plus sign or none, then digits, with white space around them.
Nothing else is read. -/
namespace NodeHarness

namespace Text.Decimal

/-- Digits that stand for the number, with one plus sign in front of them or none. -/
def Denotes (cs : List Char) (n : Nat) : Prop :=
  ∃ digits, Digits digits ∧ (cs = digits ∨ cs = '+' :: digits) ∧ Nat.ofDigitChars 10 digits 0 = n

section Reader

variable {bound : Nat}

theorem push_eq_ok {before n : Nat} {c : Char} :
    push bound before c = .ok n ↔
      c.isDigit = true ∧ n < bound ∧ before * 10 + digitValue c = n := by
  rw [push]
  dsimp only
  constructor
  · intro pushed
    split at pushed
    · rename_i digit
      split at pushed
      · rename_i fits
        cases pushed
        exact ⟨digit, fits, rfl⟩
      · cases pushed
    · cases pushed
  · rintro ⟨digit, fits, rfl⟩
    rw [if_pos digit, if_pos fits]

/-- The bound is tested at every digit; a number that fits at the end has fitted all along. -/
theorem readDigits_eq_ok {cs : List Char} {before n : Nat} (small : before < bound) :
    readDigits bound before cs = .ok n ↔
      (∀ c ∈ cs, c.isDigit = true) ∧ n < bound ∧ Nat.ofDigitChars 10 cs before = n := by
  constructor
  · intro read
    induction cs generalizing before with
    | nil =>
      cases read
      exact ⟨by simp, small, rfl⟩
    | cons c cs ih =>
      rw [readDigits] at read
      split at read
      · rename_i next pushed
        obtain ⟨digit, fits, rfl⟩ := push_eq_ok.mp pushed
        obtain ⟨digits, below, value⟩ := ih fits read
        refine ⟨?_, below, ?_⟩
        · exact List.forall_mem_cons.mpr ⟨digit, digits⟩
        · rw [ofDigitChars_cons, value]
      · cases read
  · rintro ⟨digits, below, rfl⟩
    exact readDigits_digits digits below

/-- The reader takes the numbers below its bound, in exactly the form that has digits. -/
theorem readBelow_eq_ok {cs : List Char} {n : Nat} (positive : 0 < bound) :
    readBelow bound cs = .ok n ↔ Denotes cs n ∧ n < bound := by
  constructor
  · intro read
    unfold readBelow at read
    split at read
    · cases read
    · cases read
    · rename_i rest single
      obtain ⟨digits, below, value⟩ := (readDigits_eq_ok positive).mp read
      have some : rest ≠ [] := by
        rintro rfl
        exact single rfl
      exact ⟨⟨rest, ⟨some, digits⟩, .inr rfl, value⟩, below⟩
    · rename_i some _ plus
      obtain ⟨digits, below, value⟩ := (readDigits_eq_ok positive).mp read
      exact ⟨⟨cs, ⟨some, digits⟩, .inl rfl, value⟩, below⟩
  · rintro ⟨⟨digits, written, rfl | rfl, rfl⟩, below⟩
    · exact readBelow_digits written below
    · -- the sign is taken off, and there is a digit behind it
      unfold readBelow
      split
      · rename_i same
        cases same
      · rename_i same
        exact absurd (List.cons.inj same).2 written.1
      · rename_i same
        obtain ⟨_, rfl⟩ := List.cons.inj same
        exact readDigits_digits written.2 below
      · rename_i plus
        exact absurd rfl (plus _)

end Reader

end Text.Decimal

namespace Json

open Text.Decimal (Denotes Digits words64)

/-- The number that a row of digits stands for. -/
def ofDigitValues (ds : List Nat) : Nat := ds.foldl (fun n d => n * 10 + d) 0

namespace NumberText

theorem foldl_grows (ds : List Nat) (before : Nat) :
    before ≤ ds.foldl (fun n d => n * 10 + d) before := by
  induction ds generalizing before with
  | nil => exact Nat.le_refl before
  | cons d ds ih =>
    have grown := ih (before * 10 + d)
    rw [List.foldl_cons]
    omega

/-- All digits are taken exactly if the number that they make fits. -/
theorem absorb_all {ds : List Nat} {before m : Nat} (small : before < words64) :
    absorb before ds = (m, []) ↔ m < words64 ∧ ds.foldl (fun n d => n * 10 + d) before = m := by
  induction ds generalizing before with
  | nil =>
    rw [absorb, List.foldl_nil, Prod.mk.injEq]
    constructor
    · rintro ⟨rfl, _⟩
      exact ⟨small, rfl⟩
    · rintro ⟨_, rfl⟩
      exact ⟨rfl, rfl⟩
  | cons d ds ih =>
    rw [absorb, List.foldl_cons]
    split
    · rename_i fits
      exact ih fits
    · rename_i large
      have grown := foldl_grows ds (before * 10 + d)
      constructor
      · intro rest
        cases rest
      · rintro ⟨below, rfl⟩
        omega

/-- What is scaled is a double or out of range. -/
theorem scaled_ne_natural {negative : Bool} {scaled : Option Nat} {n : Nat} :
    (match scaled with
      | some word => Except.ok (JsonNumber.floating ⟨negative, word⟩)
      | none => .error Fault.numberRange) ≠ .ok (.natural n) := by
  intro read
  cases scaled <;> cases read

/-- A number is a natural one exactly if it is whole, without a sign, and fits: a fraction, an
exponent or a digit too many makes it a double. -/
theorem value_eq_natural {t : NumberText} {n : Nat} :
    t.value = .ok (.natural n) ↔
      t = ⟨false, t.whole, none, none, .complete⟩ ∧ n < words64 ∧ ofDigitValues t.whole = n := by
  have zero : 0 < words64 := by decide
  rw [ofDigitValues, ← absorb_all zero]
  constructor
  · intro read
    obtain ⟨negative, whole, fraction, exponent, finish⟩ := t
    unfold value at read
    dsimp only at read ⊢
    split at read
    · cases read
    · cases read
    · split at read
      · rename_i excess none
        split at read
        · split at read
          · exact absurd read scaled_ne_natural
          · cases read
        · rename_i unsigned
          cases read
          simp only [Bool.not_eq_true] at unsigned
          rw [unsigned]
          exact ⟨rfl, Prod.ext rfl none⟩
      · exact absurd read scaled_ne_natural
  · rintro ⟨plain, absorbed⟩
    rw [plain, value]
    dsimp only
    rw [absorbed]
    rfl

end NumberText

/-- A text is cut to what has white space only around it. -/
theorem padded_trim (s : String) : Text.Padded Text.isBlank s.toList (Text.trim s.toList) :=
  Text.padded_stripBoth Text.isBlank s.toList

/-- The spellings of a 64-bit number: an integer, or a text that has the number between white
space. -/
inductive Spells (n : Nat) : Json → Prop
  | integer : Spells n (.number (.natural n))
  | text {s : String} {inner : List Char} : Text.Padded Text.isBlank s.toList inner →
    Denotes inner n → n < 2 ^ 64 → Spells n (.text s)

theorem natural64_spells {v : Json} {n : Nat} : natural64 v = .ok n ↔ v.Spells n := by
  have positive : 0 < words64 := by decide
  constructor
  · intro read
    unfold natural64 at read
    split at read
    · cases read
      exact .integer
    · rename_i s
      split at read
      · rename_i m decimal
        cases read
        obtain ⟨denotes, fits⟩ := (Text.Decimal.readBelow_eq_ok positive).mp decimal
        exact .text (padded_trim s) denotes fits
      · cases read
    · cases read
  · intro spells
    cases spells with
    | integer => rfl
    | text padded denotes fits =>
      rw [natural64, Text.trim, padded.eq,
        (Text.Decimal.readBelow_eq_ok positive).mpr ⟨denotes, fits⟩]

theorem natural64_number {number : JsonNumber} {n : Nat} :
    natural64 (.number number) = .ok n ↔ number = .natural n := by
  cases number <;> simp [natural64]

namespace Outline

theorem endOk_eq_ok {α : Type} {fault : Option Fault} {a b : α} :
    endOk fault a = .ok b ↔ fault = none ∧ a = b := by
  cases fault <;> simp [endOk]

theorem value_list {depth : Nat} {items : List Outline} {finish : ListEnd} {v : Json}
    (read : (Outline.list items finish).value depth = .ok v) : ∃ vs, v = .list vs := by
  rw [Outline.value] at read
  split at read
  · cases read
  · cases inner : valueItems (depth - 1) items with
    | error fault => simp [inner, bind, Except.bind] at read
    | ok vs =>
      simp only [inner, bind, Except.bind, endOk_eq_ok] at read
      exact ⟨vs, read.2.symm⟩

theorem value_object {depth : Nat} {members : List (QuotedText × Outline)} {finish : ObjectEnd}
    {v : Json} (read : (Outline.object members finish).value depth = .ok v) :
    ∃ vs, v = .object vs := by
  rw [Outline.value] at read
  split at read
  · cases read
  · cases inner : valueMembers (depth - 1) members with
    | error fault => simp [inner, bind, Except.bind] at read
    | ok vs =>
      simp only [inner, bind, Except.bind, endOk_eq_ok] at read
      exact ⟨vs, read.2.symm⟩

/-- The spellings of a 64-bit number: a plain integer, or a text that has the number between white
space. -/
inductive Spells (n : Nat) : Outline → Prop
  | integer {whole : List Nat} : ofDigitValues whole = n → n < 2 ^ 64 →
    Spells n (.number ⟨false, whole, none, none, .complete⟩)
  | text {t : QuotedText} {s : String} {inner : List Char} : t.decode = .ok s →
    Text.Padded Text.isBlank s.toList inner → Denotes inner n → n < 2 ^ 64 → Spells n (.text t)

theorem spells_number {t : NumberText} {n : Nat} :
    (Outline.number t).Spells n ↔ t.value = .ok (.natural n) := by
  rw [NumberText.value_eq_natural]
  constructor
  · rintro ⟨value, fits⟩
    exact ⟨rfl, fits, value⟩
  · rintro ⟨plain, fits, value⟩
    rw [plain]
    exact .integer value fits

theorem spells_text {t : QuotedText} {n : Nat} :
    (Outline.text t).Spells n ↔ ∃ s, t.decode = .ok s ∧ natural64 (.text s) = .ok n := by
  simp only [natural64_spells]
  constructor
  · intro spells
    cases spells with
    | text decoded padded denotes fits => exact ⟨_, decoded, .text padded denotes fits⟩
  · rintro ⟨s, decoded, spells⟩
    cases spells with
    | text padded denotes fits => exact .text decoded padded denotes fits

/-- What is read as a number is what spells one, at any depth. -/
theorem spells_iff (depth : Nat) (o : Outline) (n : Nat) :
    o.Spells n ↔ ∃ v, o.value depth = .ok v ∧ natural64 v = .ok n := by
  cases o with
  | number t =>
    rw [spells_number, Outline.value]
    cases t.value <;> simp [Except.map, natural64_number]
  | text t =>
    rw [spells_text, Outline.value]
    cases t.decode <;> simp [Except.map]
  | list items finish =>
    constructor
    · intro spells
      cases spells
    · rintro ⟨v, read, number⟩
      obtain ⟨vs, rfl⟩ := value_list read
      cases number
  | object members finish =>
    constructor
    · intro spells
      cases spells
    · rintro ⟨v, read, number⟩
      obtain ⟨vs, rfl⟩ := value_object read
      cases number
  | _ =>
    constructor
    · intro spells
      cases spells
    · rintro ⟨v, read, number⟩
      cases read
      try cases number

end Outline

end Json
end NodeHarness
