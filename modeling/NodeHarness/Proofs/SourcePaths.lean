import NodeHarness.CallSite
import NodeHarness.Proofs.Padding

/-! When two paths are taken for one source file. One path is the end of another as a text exactly
if its components end the other's, where its first component may be only the end of one. So files
are told apart by their components but for those whose path begins in the middle of a name of the
other path. -/
namespace NodeHarness

namespace Text

section Pieces

variable {separator : Char} {as bs last first : List Char} {before rest : List (List Char)}

theorem intercalate_seam (before : List (List Char)) (last first : List Char)
    (rest : List (List Char)) :
    [separator].intercalate (before ++ (last ++ first) :: rest) =
      [separator].intercalate (before ++ [last]) ++ [separator].intercalate (first :: rest) := by
  induction before with
  | nil => cases rest <;> simp
  | cons piece before ih =>
    have more : ∀ tail : List Char, ∀ others, before ++ tail :: others ≠ [] := by simp
    simp only [List.cons_append, List.intercalate_cons_of_ne_nil (more _ _), ih,
      List.append_assoc]

/-- Where two texts meet, the last piece of one and the first piece of the other become one. -/
theorem pieces_seam (left : pieces separator as = before ++ [last])
    (right : pieces separator bs = first :: rest) :
    pieces separator (as ++ bs) = before ++ (last ++ first) :: rest := by
  have inLeft : ∀ piece ∈ before ++ [last], separator ∉ piece := by
    rw [← left]
    exact fun _ => separator_not_mem_pieces
  have inRight : ∀ piece ∈ first :: rest, separator ∉ piece := by
    rw [← right]
    exact fun _ => separator_not_mem_pieces
  have whole : ∀ piece ∈ before ++ (last ++ first) :: rest, separator ∉ piece := by
    intro piece member
    rcases List.mem_append.mp member with early | late
    · exact inLeft piece (List.mem_append_left _ early)
    · rcases List.mem_cons.mp late with rfl | behind
      · simp [inLeft last (by simp), inRight first (by simp)]
      · exact inRight piece (List.mem_cons_of_mem _ behind)
  have text : as ++ bs = [separator].intercalate (before ++ (last ++ first) :: rest) := by
    rw [intercalate_seam, ← left, ← right, intercalate_pieces, intercalate_pieces]
  rw [text, pieces_eq_splitOn, List.splitOn_intercalate separator whole (by simp)]

theorem suffix_iff_pieces : as <:+ bs ↔ ∃ before whole part rest,
    pieces separator bs = before ++ whole :: rest ∧ pieces separator as = part :: rest ∧
      part <:+ whole := by
  constructor
  · rintro ⟨front, rfl⟩
    obtain ⟨part, rest, right⟩ := List.exists_cons_of_ne_nil (pieces_ne_nil separator as)
    have left := List.dropLast_concat_getLast (pieces_ne_nil separator front)
    exact ⟨_, _, part, rest, pieces_seam left.symm right, right, List.suffix_append _ _⟩
  · rintro ⟨before, _, part, rest, long, short, last, rfl⟩
    refine ⟨[separator].intercalate (before ++ [last]), ?_⟩
    rw [← intercalate_pieces separator bs, long, intercalate_seam, ← short, intercalate_pieces]

end Pieces

end Text

namespace CallSite

/-- The components of a path behind all the dots and slashes that only say where it begins. -/
def HasComponents (path : String) (components : List (List Char)) : Prop :=
  ∃ n rest, path.toList = (List.replicate n ['.', '/']).flatten ++ rest ∧
    ¬ ['.', '/'] <+: rest ∧ components = Text.pieces '/' rest

section Frames

variable {separator : Char} {before behind cs path line column : List Char}

theorem cutLast_behind (free : separator ∉ behind) :
    cutLast separator (before ++ separator :: behind) = some (before, behind) := by
  have flipped : (before ++ separator :: behind).reverse =
      behind.reverse ++ separator :: before.reverse := by simp
  have passes : ∀ c ∈ behind.reverse, decide (c ≠ separator) = true := by
    intro c member
    exact decide_eq_true fun same => free (same ▸ List.mem_reverse.mp member)
  have left : (behind.reverse ++ separator :: before.reverse).dropWhile (· ≠ separator) =
      separator :: before.reverse := Text.dropWhile_padding passes (by simp)
  have right : (behind.reverse ++ separator :: before.reverse).takeWhile (· ≠ separator) =
      behind.reverse := by
    rw [List.takeWhile_append_of_pos passes, List.takeWhile_cons_of_neg (by simp),
      List.append_nil]
  rw [cutLast, flipped, left, right]
  simp

/-- A frame that ends in a position gives its path, whatever separators stand in the path. -/
theorem framePath_position (noLine : ':' ∉ line) (noColumn : ':' ∉ column) :
    framePath (path ++ ':' :: line ++ ':' :: column) = path := by
  rw [framePath, cutLast_behind noColumn]
  simp only [cutLast_behind noLine]

theorem dropHere_bare (bare : ¬ ['.', '/'] <+: cs) : dropHere cs = cs := by
  unfold dropHere
  split
  · exact absurd (by simp) bare
  · rfl

theorem dropHere_leading (n : Nat) (cs : List Char) :
    dropHere ((List.replicate n ['.', '/']).flatten ++ cs) = dropHere cs := by
  induction n with
  | zero => rfl
  | succ n ih =>
    rw [List.replicate_succ, List.flatten_cons, List.append_assoc]
    exact ih

theorem dropHere_spec (cs : List Char) :
    (∃ n, cs = (List.replicate n ['.', '/']).flatten ++ dropHere cs) ∧
      ¬ ['.', '/'] <+: dropHere cs := by
  fun_induction dropHere cs with
  | case1 rest ih =>
    obtain ⟨⟨n, leading⟩, bare⟩ := ih
    exact ⟨⟨n + 1, congrArg (fun cs => '.' :: '/' :: cs) leading⟩, bare⟩
  | case2 cs other =>
    refine ⟨⟨0, rfl⟩, ?_⟩
    rintro ⟨rest, rfl⟩
    exact other rest rfl

/-- Every path has components, and only these. -/
theorem hasComponents_iff {path : String} {components : List (List Char)} :
    HasComponents path components ↔ components = Text.pieces '/' (dropHere path.toList) := by
  constructor
  · rintro ⟨n, rest, written, bare, rfl⟩
    rw [written, dropHere_leading, dropHere_bare bare]
  · rintro rfl
    obtain ⟨⟨n, leading⟩, bare⟩ := dropHere_spec path.toList
    exact ⟨n, _, leading, bare, rfl⟩

theorem colon_not_mem_digits (digits : ∀ c ∈ cs, c.isDigit = true) : ':' ∉ cs := by
  intro colon
  exact absurd (digits ':' colon) (by decide)

theorem sameSource_iff_suffix {path file line column : String}
    (lineDigits : ∀ c ∈ line.toList, c.isDigit = true)
    (columnDigits : ∀ c ∈ column.toList, c.isDigit = true) :
    sameSource (path ++ ":" ++ line ++ ":" ++ column) file = true ↔
      dropHere path.toList <:+ dropHere file.toList ∨
        dropHere file.toList <:+ dropHere path.toList := by
  have frame : (path ++ ":" ++ line ++ ":" ++ column).toList =
      path.toList ++ ':' :: line.toList ++ ':' :: column.toList := by simp
  rw [sameSource, sameSourceChars, frame, framePath_position (colon_not_mem_digits lineDigits)
    (colon_not_mem_digits columnDigits)]
  simp only [Bool.or_eq_true, List.isSuffixOf_iff_suffix]
  exact or_comm

end Frames

section Components

variable {own other : List (List Char)}

/-- The shorter path begins in the middle of a component of the longer one, and then goes on as it
does. -/
def EndsInside (shorter longer : List (List Char)) : Prop :=
  ∃ before whole part rest, longer = before ++ whole :: rest ∧ shorter = part :: rest ∧
    part <:+ whole ∧ part ≠ whole

/-- The shorter path is one name alone, with which the last name of the longer one ends. -/
def NameInside (shorter longer : List (List Char)) : Prop :=
  ∃ before whole part, longer = before ++ [whole] ∧ shorter = [part] ∧
    part <:+ whole ∧ part ≠ whole

theorem suffix_iff_components {as bs : List Char} :
    as <:+ bs ↔ Text.pieces '/' as <:+ Text.pieces '/' bs ∨
      EndsInside (Text.pieces '/' as) (Text.pieces '/' bs) := by
  rw [Text.suffix_iff_pieces]
  constructor
  · rintro ⟨before, whole, part, rest, long, short, ends⟩
    by_cases same : part = whole
    · exact .inl ⟨before, by rw [long, short, same]⟩
    · exact .inr ⟨before, whole, part, rest, long, short, ends, same⟩
  · rintro (⟨before, long⟩ | ⟨before, whole, part, rest, long, short, ends, _⟩)
    · obtain ⟨part, rest, short⟩ := List.exists_cons_of_ne_nil (Text.pieces_ne_nil '/' as)
      exact ⟨before, part, part, rest, by rw [← long, short], short, List.suffix_rfl⟩
    · exact ⟨before, whole, part, rest, long, short, ends⟩

theorem EndsInside.apart (inside : EndsInside own other) :
    ¬ (own <:+ other ∨ other <:+ own) := by
  obtain ⟨before, whole, part, rest, rfl, rfl, _, differ⟩ := inside
  have tail : whole :: rest <:+ before ++ whole :: rest := List.suffix_append _ _
  -- both ends are as long as the shorter path, so they would be the same
  have ends (same : whole :: rest <:+ part :: rest) : False := by
    obtain ⟨equal, _⟩ := List.cons.inj (same.eq_of_length rfl)
    exact differ equal.symm
  rintro (within | around)
  · exact ends (List.suffix_of_suffix_length_le tail within (by simp))
  · exact ends (tail.trans around)

theorem getLast?_of_suffix (filled : own ≠ []) (suffix : own <:+ other) :
    own.getLast? = other.getLast? := by
  obtain ⟨before, rfl⟩ := suffix
  rw [List.getLast?_append, List.getLast?_eq_some_getLast filled, Option.some_or]

theorem NameInside.endsInside (inside : NameInside own other) : EndsInside own other := by
  obtain ⟨before, whole, part, long, short, ends, differ⟩ := inside
  exact ⟨before, whole, part, [], long, short, ends, differ⟩

theorem EndsInside.nameInside (inside : EndsInside own other)
    (differ : own.getLast? ≠ other.getLast?) : NameInside own other := by
  obtain ⟨before, whole, part, rest, rfl, rfl, ends, unequal⟩ := inside
  cases rest with
  | nil => exact ⟨before, whole, part, rfl, rfl, ends, unequal⟩
  | cons next rest =>
    -- both paths go on alike behind the first component, and so to their last one
    have short : next :: rest <:+ part :: next :: rest := List.suffix_cons _ _
    have long : next :: rest <:+ before ++ whole :: next :: rest :=
      (List.suffix_cons _ _).trans (List.suffix_append _ _)
    have filled : next :: rest ≠ [] := List.cons_ne_nil _ _
    exact absurd ((getLast?_of_suffix filled short).symm.trans (getLast?_of_suffix filled long))
      differ

end Components

/-- What telling files apart by their components promises. -/
def ByComponents (frame file : String) (own other : List (List Char)) : Prop :=
  sameSource frame file = true ↔ own <:+ other ∨ other <:+ own

/-- A frame is taken for a file's if the components of one path end the other's, and also if one
path begins in the middle of a name of the other. -/
theorem sameSource_exact {path file line column : String} {own other : List (List Char)}
    (lineDigits : ∀ c ∈ line.toList, c.isDigit = true)
    (columnDigits : ∀ c ∈ column.toList, c.isDigit = true)
    (ofPath : HasComponents path own) (ofFile : HasComponents file other) :
    (sameSource (path ++ ":" ++ line ++ ":" ++ column) file = true ↔
      (own <:+ other ∨ other <:+ own) ∨ EndsInside own other ∨ EndsInside other own) ∧
    (ByComponents (path ++ ":" ++ line ++ ":" ++ column) file own other ↔
      ¬ (EndsInside own other ∨ EndsInside other own)) ∧
    (own.getLast? ≠ other.getLast? →
      (sameSource (path ++ ":" ++ line ++ ":" ++ column) file = true ↔
        NameInside own other ∨ NameInside other own)) := by
  have filled : own ≠ [] ∧ other ≠ [] := by
    rw [hasComponents_iff.mp ofPath, hasComponents_iff.mp ofFile]
    exact ⟨Text.pieces_ne_nil _ _, Text.pieces_ne_nil _ _⟩
  have same : sameSource (path ++ ":" ++ line ++ ":" ++ column) file = true ↔
      (own <:+ other ∨ other <:+ own) ∨ EndsInside own other ∨ EndsInside other own := by
    rw [sameSource_iff_suffix lineDigits columnDigits, suffix_iff_components,
      suffix_iff_components, ← hasComponents_iff.mp ofPath, ← hasComponents_iff.mp ofFile]
    exact or_or_or_comm
  have apart : EndsInside own other ∨ EndsInside other own →
      ¬ (own <:+ other ∨ other <:+ own) := by
    rintro (inside | inside)
    · exact inside.apart
    · exact fun suffix => inside.apart suffix.symm
  refine ⟨same, ?_, ?_⟩
  · rw [ByComponents, same]
    constructor
    · intro promised inside
      exact apart inside (promised.mp (.inr inside))
    · intro outside
      exact ⟨fun found => found.resolve_right outside, .inl⟩
  · intro differ
    rw [same]
    constructor
    · rintro ((suffix | suffix) | inside | inside)
      · exact absurd (getLast?_of_suffix filled.1 suffix) differ
      · exact absurd (getLast?_of_suffix filled.2 suffix).symm differ
      · exact .inl (inside.nameInside differ)
      · exact .inr (inside.nameInside differ.symm)
    · rintro (inside | inside)
      · exact .inr (.inl inside.endsInside)
      · exact .inr (.inr inside.endsInside)

/-- The name `text.rs` begins in the middle of `context.rs`, and the two are taken for one file. -/
theorem contextFrame_inside :
    HasComponents "./tests/context.rs" ["tests".toList, "context.rs".toList] ∧
    HasComponents "text.rs" ["text.rs".toList] ∧
    sameSource "./tests/context.rs:10:5" "text.rs" = true ∧
    ¬ ByComponents "./tests/context.rs:10:5" "text.rs"
      ["tests".toList, "context.rs".toList] ["text.rs".toList] := by
  have ofPath : HasComponents "./tests/context.rs" ["tests".toList, "context.rs".toList] :=
    hasComponents_iff.mpr rfl
  have ofFile : HasComponents "text.rs" ["text.rs".toList] := hasComponents_iff.mpr rfl
  have inside : EndsInside ["text.rs".toList] ["tests".toList, "context.rs".toList] :=
    ⟨["tests".toList], "context.rs".toList, "text.rs".toList, [], rfl, rfl, by decide, by decide⟩
  have lineDigits : ∀ c ∈ "10".toList, c.isDigit = true := List.all_eq_true.mp rfl
  have columnDigits : ∀ c ∈ "5".toList, c.isDigit = true := List.all_eq_true.mp rfl
  obtain ⟨same, promised, _⟩ :=
    @sameSource_exact "./tests/context.rs" "text.rs" "10" "5" _ _ lineDigits columnDigits
      ofPath ofFile
  exact ⟨ofPath, ofFile, same.mpr (.inr (.inr inside)), fun kept => promised.mp kept (.inr inside)⟩

end CallSite
end NodeHarness
