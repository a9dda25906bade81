/-! White space, cutting it from both ends of a text, and cutting a text at a separator.
Blank means the Unicode property White_Space, which is wider than the six ASCII characters. -/
namespace NodeHarness.Text

/-- Inclusive code point ranges with the property White_Space. -/
def blankRanges : List (Nat × Nat) :=
  [(0x9, 0xd), (0x20, 0x20), (0x85, 0x85), (0xa0, 0xa0), (0x1680, 0x1680), (0x2000, 0x200a),
   (0x2028, 0x2029), (0x202f, 0x202f), (0x205f, 0x205f), (0x3000, 0x3000)]

def isBlank (c : Char) : Bool :=
  blankRanges.any fun (low, high) => low ≤ c.toNat && c.toNat ≤ high

def dropEndWhile (drop : Char → Bool) (cs : List Char) : List Char :=
  (cs.reverse.dropWhile drop).reverse

/-- Removes the longest runs of `drop` characters at both ends. -/
def stripBoth (drop : Char → Bool) (cs : List Char) : List Char :=
  dropEndWhile drop (cs.dropWhile drop)

def trim (cs : List Char) : List Char := stripBoth isBlank cs

def trimmed (s : String) : String := String.ofList (trim s.toList)

/-- The pieces between separators; one more than there are separators. -/
def pieces (separator : Char) : List Char → List (List Char)
  | [] => [[]]
  | c :: cs =>
    if c = separator then [] :: pieces separator cs
    else match pieces separator cs with
      | [] => [[c]]
      | piece :: rest => (c :: piece) :: rest

def joinWith (separator : List Char) : List (List Char) → List Char
  | [] => []
  | [piece] => piece
  | piece :: rest => piece ++ separator ++ joinWith separator rest

theorem pieces_eq_splitOn (separator : Char) (cs : List Char) :
    pieces separator cs = cs.splitOn separator := by
  induction cs with
  | nil => rfl
  | cons c cs ih =>
    rw [pieces, ih, List.splitOn_cons_eq_if_modifyHead]
    simp only [beq_iff_eq]
    split
    · rfl
    · cases found : cs.splitOn separator with
      | nil => exact absurd found (List.splitOn_ne_nil separator cs)
      | cons piece rest => rfl

theorem pieces_ne_nil (separator : Char) (cs : List Char) : pieces separator cs ≠ [] := by
  rw [pieces_eq_splitOn]
  exact List.splitOn_ne_nil separator cs

theorem separator_not_mem_pieces {separator : Char} {cs piece : List Char}
    (member : piece ∈ pieces separator cs) : separator ∉ piece := by
  induction cs generalizing piece with
  | nil => simp_all [pieces]
  | cons c cs ih =>
    simp only [pieces] at member
    split at member
    · rcases List.mem_cons.mp member with rfl | member
      · simp
      · exact ih member
    · rename_i other
      split at member
      · rename_i found
        exact absurd found (pieces_ne_nil separator cs)
      · rename_i first rest found
        rcases List.mem_cons.mp member with rfl | member
        · have inner : separator ∉ first := ih (by simp [found])
          simp [inner, Ne.symm other]
        · exact ih (by simp [found, member])

/-- A text without a separator is one piece. -/
theorem pieces_whole {separator : Char} {cs : List Char} (whole : separator ∉ cs) :
    pieces separator cs = [cs] := by
  rw [pieces_eq_splitOn, List.splitOn_eq_singleton whole]

/-- Two texts joined by a separator are cut into the pieces of one and then of the other. -/
theorem pieces_append (separator : Char) (as bs : List Char) :
    pieces separator (as ++ separator :: bs) = pieces separator as ++ pieces separator bs := by
  simp only [pieces_eq_splitOn, List.splitOn_append_cons_self]

/-- The pieces with separators between them are the text. -/
theorem intercalate_pieces (separator : Char) (cs : List Char) :
    [separator].intercalate (pieces separator cs) = cs := by
  rw [pieces_eq_splitOn, List.intercalate_splitOn]

end NodeHarness.Text
