import Mathlib.Data.List.TakeWhile
import NodeHarness.Text.Blank

/-! Padding around a text. Cutting a text at both ends leaves the one part of it that has padding
on both sides and neither begins nor ends with padding. -/
namespace NodeHarness.Text

section Padding

variable {drop : Char → Bool} {cs inner : List Char}

structure Padded (drop : Char → Bool) (cs inner : List Char) : Prop where
  around : ∃ front back, cs = front ++ inner ++ back ∧
    (∀ c ∈ front, drop c = true) ∧ ∀ c ∈ back, drop c = true
  begins : ∀ c ∈ inner.head?, drop c = false
  ends : ∀ c ∈ inner.getLast?, drop c = false

theorem dropWhile_padding {front rest : List Char} (padding : ∀ c ∈ front, drop c = true)
    (begins : ∀ c ∈ rest.head?, drop c = false) : (front ++ rest).dropWhile drop = rest := by
  have kept : rest.dropWhile drop = rest := by
    cases rest with
    | nil => rfl
    | cons c rest => exact List.dropWhile_cons_of_neg (by simpa using begins c rfl)
  have gone : front.dropWhile drop = [] := List.dropWhile_eq_nil_iff.mpr padding
  rw [List.dropWhile_append, gone, kept]
  rfl

theorem head?_dropWhile (drop : Char → Bool) (cs : List Char) :
    ∀ c ∈ (cs.dropWhile drop).head?, drop c = false := by
  intro c found
  have passed := List.head?_dropWhile_not drop cs
  rw [Option.mem_def.mp found] at passed
  simpa using passed

theorem padded_stripBoth (drop : Char → Bool) (cs : List Char) :
    Padded drop cs (stripBoth drop cs) := by
  have padding (ds : List Char) : ∀ c ∈ ds.takeWhile drop, drop c = true :=
    fun _ member => List.mem_takeWhile_imp member
  have cut : stripBoth drop cs ++ ((cs.dropWhile drop).reverse.takeWhile drop).reverse =
      cs.dropWhile drop := by
    rw [stripBoth, dropEndWhile, ← List.reverse_append, List.takeWhile_append_dropWhile,
      List.reverse_reverse]
  refine ⟨⟨cs.takeWhile drop, ((cs.dropWhile drop).reverse.takeWhile drop).reverse, ?_,
    padding cs, fun c member => padding _ c (List.mem_reverse.mp member)⟩, ?_, ?_⟩
  · rw [List.append_assoc, cut, List.takeWhile_append_dropWhile]
  · intro c found
    refine head?_dropWhile drop cs c ?_
    rw [← cut, List.head?_append, Option.mem_def.mp found]
    rfl
  · intro c found
    rw [stripBoth, dropEndWhile, List.getLast?_reverse] at found
    exact head?_dropWhile drop _ c found

/-- There is only one way to cut. -/
theorem Padded.eq (padded : Padded drop cs inner) : stripBoth drop cs = inner := by
  obtain ⟨⟨front, back, rfl, before, behind⟩, begins, ends⟩ := padded
  have flipped : ∀ c ∈ back.reverse, drop c = true :=
    fun c member => behind c (List.mem_reverse.mp member)
  rw [stripBoth, dropEndWhile, List.append_assoc]
  cases inner with
  | nil =>
    have gone : (front ++ back).dropWhile drop = [] := List.dropWhile_eq_nil_iff.mpr
      fun c member => (List.mem_append.mp member).elim (before c) (behind c)
    rw [List.nil_append, gone]
    rfl
  | cons c rest =>
    rw [dropWhile_padding before (by simpa using begins), List.reverse_append,
      dropWhile_padding flipped (by simpa only [List.head?_reverse] using ends),
      List.reverse_reverse]

end Padding

end NodeHarness.Text
