import NodeHarness.Proofs.Padding
import NodeHarness.Proofs.PrintedHash

/-! The hash in any text. At every place of a text at most one hash can be read, and the one that is
found is read at the first place where there is one. The label of a hash does not overlap itself, so
what stands in front of the first label does not matter. -/
namespace NodeHarness.TxHash

/-- The text begins with the label, any white space, and this hash in quotes. -/
def Reads (cs hash : List Char) : Prop :=
  ∃ blank behind, cs = label ++ (blank ++ '"' :: (hash ++ '"' :: behind)) ∧
    (∀ c ∈ blank, Text.isBlank c = true) ∧ '"' ∉ hash

section Captures

variable {cs hash : List Char}

theorem takeWhile_unquoted (behind : List Char) (unquoted : '"' ∉ hash) :
    (hash ++ '"' :: behind).takeWhile (· ≠ '"') = hash := by
  have all : ∀ c ∈ hash, decide (c ≠ '"') = true := by
    intro c member
    exact decide_eq_true fun same => unquoted (same ▸ member)
  rw [List.takeWhile_append_of_pos all, List.takeWhile_cons_of_neg (by decide), List.append_nil]

theorem quoted?_eq_some :
    quoted? cs = some hash ↔
      ∃ behind, cs = '"' :: (hash ++ '"' :: behind) ∧ '"' ∉ hash := by
  constructor
  · intro read
    unfold quoted? at read
    split at read
    · rename_i body
      split at read
      · rename_i closed
        obtain ⟨inner, behind, rfl, unquoted⟩ :=
          List.eq_append_cons_of_mem (List.contains_iff_mem.mp closed)
        rw [takeWhile_unquoted behind unquoted] at read
        cases read
        exact ⟨behind, rfl, unquoted⟩
      · cases read
    · cases read
  · rintro ⟨behind, rfl, unquoted⟩
    have closed : (hash ++ '"' :: behind).contains '"' = true := by simp
    rw [quoted?, if_pos closed, takeWhile_unquoted behind unquoted]

theorem captureAt?_eq_some : captureAt? cs = some hash ↔ Reads cs hash := by
  constructor
  · intro captured
    unfold captureAt? at captured
    split at captured
    · rename_i labelled
      obtain ⟨rest, rfl⟩ := List.isPrefixOf_iff_prefix.mp labelled
      rw [List.drop_left] at captured
      obtain ⟨behind, quoted, unquoted⟩ := quoted?_eq_some.mp captured
      refine ⟨rest.takeWhile Text.isBlank, behind, ?_, ?_, unquoted⟩
      · rw [← quoted, List.takeWhile_append_dropWhile]
      · intro c member
        exact List.mem_takeWhile_imp member
    · cases captured
  · rintro ⟨blank, behind, rfl, all, unquoted⟩
    have labelled : label.isPrefixOf (label ++ (blank ++ '"' :: (hash ++ '"' :: behind))) = true :=
      List.isPrefixOf_iff_prefix.mpr (List.prefix_append _ _)
    have quote : ∀ c ∈ ('"' :: (hash ++ '"' :: behind)).head?, Text.isBlank c = false := by
      intro c first
      cases first
      decide
    rw [captureAt?, if_pos labelled, List.drop_left, Text.dropWhile_padding all quote]
    exact quoted?_eq_some.mpr ⟨behind, rfl, unquoted⟩

theorem captureAt?_eq_none : captureAt? cs = none ↔ ∀ hash, ¬ Reads cs hash := by
  simp only [Option.eq_none_iff_forall_ne_some, ne_eq, captureAt?_eq_some]

theorem find?_captured (captured : captureAt? cs = some hash) : find? cs = some hash := by
  cases cs with
  | nil => cases captured
  | cons c cs => rw [find?_cons, captured, Option.some_or]

/-- The search goes past places where nothing is captured. -/
theorem find?_drop (place : Nat)
    (free : ∀ earlier < place, captureAt? (cs.drop earlier) = none) :
    find? cs = find? (cs.drop place) := by
  induction place generalizing cs with
  | zero => rfl
  | succ place ih =>
    cases cs with
    | nil => rfl
    | cons c cs =>
      have here : captureAt? (c :: cs) = none := free 0 (Nat.succ_pos place)
      rw [find?_cons, here, Option.none_or, List.drop_succ_cons]
      apply ih
      intro earlier before
      exact free (earlier + 1) (Nat.succ_lt_succ before)

theorem find?_eq_none (free : ∀ place, captureAt? (cs.drop place) = none) : find? cs = none := by
  have all := find?_drop cs.length fun earlier _ => free earlier
  rw [List.drop_length] at all
  exact all

end Captures

section Seam

variable {before rest : List Char}

/-- No end of the label is a beginning of it. -/
theorem label_borderless :
    ∀ k < label.length, 0 < k → (label.drop k).isPrefixOf label = false := by
  decide

/-- No label begins in a text without one and ends behind it, where the next one begins. -/
theorem captureAt?_seam (some : before ≠ []) (free : ¬ label <:+: before) :
    captureAt? (before ++ (label ++ rest)) = none := by
  have differs : label.isPrefixOf (before ++ (label ++ rest)) = false := by
    rw [Bool.eq_false_iff]
    intro found
    have start := List.isPrefixOf_iff_prefix.mp found
    rcases List.prefix_or_prefix_of_prefix start (List.prefix_append before _) with whole | cut
    · exact free whole.isInfix
    · -- the label is `before` and something that the next label begins with
      obtain ⟨beyond, split⟩ := cut
      have length : before.length + beyond.length = label.length := by
        rw [← split, List.length_append]
      have more : beyond ≠ [] := by
        rintro rfl
        rw [List.append_nil] at split
        exact free (split ▸ List.infix_rfl)
      have follows : beyond <+: label ++ rest := by
        have both : before ++ beyond <+: before ++ (label ++ rest) := split.symm ▸ start
        exact (List.prefix_append_right_inj before).mp both
      have inside : beyond <+: label := by
        rcases List.prefix_or_prefix_of_prefix follows (List.prefix_append label rest) with
          short | long
        · exact short
        · have first := List.length_pos_iff.mpr some
          have bound := long.length_le
          omega
      have ends : label.drop before.length = beyond := by rw [← split, List.drop_left]
      have borderless := label_borderless before.length
        (by have := List.length_pos_iff.mpr more; omega) (List.length_pos_iff.mpr some)
      rw [ends, List.isPrefixOf_iff_prefix.mpr inside] at borderless
      cases borderless
  rw [captureAt?, differs]
  rfl

theorem find?_seam (free : ¬ label <:+: before) :
    find? (before ++ (label ++ rest)) = find? (label ++ rest) := by
  induction before with
  | nil => rfl
  | cons c before ih =>
    have here : captureAt? ((c :: before) ++ (label ++ rest)) = none :=
      captureAt?_seam (List.cons_ne_nil c before) free
    have later : ¬ label <:+: before := fun inside =>
      free (inside.trans (List.suffix_cons c before).isInfix)
    rw [List.cons_append] at here ⊢
    rw [find?_cons, here, Option.none_or, ih later]

end Seam

/-- The hash of a text is the one that is read at the first place where one can be read. -/
structure LeftmostHash (s : String) : Prop where
  single : ∀ place hash other, Reads (s.toList.drop place) hash →
    Reads (s.toList.drop place) other → other = hash
  found : ∀ place hash, Reads (s.toList.drop place) hash →
    (∀ earlier < place, ∀ other, ¬ Reads (s.toList.drop earlier) other) →
      extract s = String.ofList hash
  absent : (∀ place hash, ¬ Reads (s.toList.drop place) hash) → extract s = ""

theorem leftmostHash (s : String) : LeftmostHash s := by
  constructor
  · intro place hash other here too
    have captured := captureAt?_eq_some.mpr here
    rw [captureAt?_eq_some.mpr too] at captured
    exact Option.some.inj captured
  · intro place hash here first
    have passed : find? s.toList = find? (s.toList.drop place) := by
      apply find?_drop
      intro earlier before
      exact captureAt?_eq_none.mpr (first earlier before)
    rw [extract, passed, find?_captured (captureAt?_eq_some.mpr here), Option.getD_some]
  · intro nowhere
    have nothing : find? s.toList = none := by
      apply find?_eq_none
      intro place
      exact captureAt?_eq_none.mpr (nowhere place)
    rw [extract, nothing]
    rfl

/-- Every text has its leftmost hash. Behind a text without a label, the hash of a labelled one is
found whatever follows. -/
theorem extract_leftmost :
    (∀ s, LeftmostHash s) ∧
      ∀ before blank hash behind : String, ¬ label <:+: before.toList →
        (∀ c ∈ blank.toList, Text.isBlank c = true) → '"' ∉ hash.toList →
          extract (before ++ "\"txhash\":" ++ blank ++ "\"" ++ hash ++ "\"" ++ behind) = hash := by
  refine ⟨leftmostHash, ?_⟩
  intro before blank hash behind free all unquoted
  have chars : (before ++ "\"txhash\":" ++ blank ++ "\"" ++ hash ++ "\"" ++ behind).toList =
      before.toList ++ (label ++
        (blank.toList ++ '"' :: (hash.toList ++ '"' :: behind.toList))) := by
    have written : "\"txhash\":".toList = label := rfl
    have quote : "\"".toList = ['"'] := rfl
    simp only [String.toList_append, written, quote, List.append_assoc, List.cons_append,
      List.nil_append]
  have read : Reads (label ++ (blank.toList ++ '"' :: (hash.toList ++ '"' :: behind.toList)))
      hash.toList := ⟨_, _, rfl, all, unquoted⟩
  rw [extract, chars, find?_seam free, find?_captured (captureAt?_eq_some.mpr read),
    Option.getD_some, String.ofList_toList]

/-- A label without a hash, then two with one. -/
def threeLabels : String := "\"txhash\":1, \"txhash\":\u00a0\n\"A0\", \"txhash\":\"B1\""

/-- The hash at the second label is the leftmost one. -/
theorem threeLabels_leftmost :
    Reads (threeLabels.toList.drop 12) "A0".toList ∧
      (∀ earlier < 12, ∀ other, ¬ Reads (threeLabels.toList.drop earlier) other) ∧
      extract threeLabels = "A0" := by
  have here : Reads (threeLabels.toList.drop 12) "A0".toList := captureAt?_eq_some.mp (by decide)
  have nowhere : ∀ earlier < 12, captureAt? (threeLabels.toList.drop earlier) = none := by decide
  have first : ∀ earlier < 12, ∀ other, ¬ Reads (threeLabels.toList.drop earlier) other :=
    fun earlier before => captureAt?_eq_none.mp (nowhere earlier before)
  exact ⟨here, first, (extract_leftmost.1 threeLabels).found 12 _ here first⟩

end NodeHarness.TxHash
