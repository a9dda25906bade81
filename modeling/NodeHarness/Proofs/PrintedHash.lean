import NodeHarness.TxHash
import NodeHarness.Proofs.PrintedText

/-! The hash in printed JSON. The label of a hash stands in the printed text of a value only where
the name of a member ends, so the hash that is found is the text of a member: of the first one in
the order of the text, at any depth, that has such a name and a text for its value. -/
namespace NodeHarness

namespace Json

mutual

/-- All members of a value at any depth, in the order of the printed text. -/
def membersWithin : Json → List (String × Json)
  | .list items => membersOfItems items
  | .object members => membersOfMembers members
  | _ => []

def membersOfItems : List Json → List (String × Json)
  | [] => []
  | item :: rest => membersWithin item ++ membersOfItems rest

def membersOfMembers : List (String × Json) → List (String × Json)
  | [] => []
  | (name, value) :: rest => (name, value) :: (membersWithin value ++ membersOfMembers rest)

end

end Json

namespace TxHash

def word : List Char := ['t', 'x', 'h', 'a', 's', 'h']

theorem label_eq : label = '"' :: (word ++ ['"', ':']) := by decide

/-- Whether a printed name ends in the label of a hash. -/
def NamesHash (name : String) : Prop := name.toList = word ∨ '"' :: word <:+ name.toList

instance (name : String) : Decidable (NamesHash name) := inferInstanceAs (Decidable (_ ∨ _))

/-- The printed body of a text up to its first quote. -/
def shown (s : String) : List Char := (s.toList.flatMap Json.escape).takeWhile (· ≠ '"')

def ofMember? : String × Json → Option (List Char)
  | (name, .text s) => if NamesHash name then some (shown s) else none
  | _ => none

/-- What the label of a hash captures when this comes behind the quote that ends its word. -/
def afterName? : List Char → Option (List Char)
  | ':' :: cs => quoted? (cs.dropWhile Text.isBlank)
  | _ => none

theorem find?_cons (c : Char) (cs : List Char) :
    find? (c :: cs) = (captureAt? (c :: cs)).or (find? cs) := by
  rw [find?]
  cases captureAt? (c :: cs) <;> rfl

theorem captureAt?_cons {c : Char} (cs : List Char) (unquoted : c ≠ '"') :
    captureAt? (c :: cs) = none := by
  have differs : label.isPrefixOf (c :: cs) = false := by
    rw [label_eq, List.isPrefixOf_cons_cons]
    simp [Ne.symm unquoted]
  simp [captureAt?, differs]

theorem find?_unquoted (cs rest : List Char) (unquoted : '"' ∉ cs) :
    find? (cs ++ rest) = find? rest := by
  induction cs with
  | nil => rfl
  | cons c cs ih =>
    have here : c ≠ '"' := fun same => unquoted (same ▸ List.mem_cons_self)
    have later : '"' ∉ cs := fun member => unquoted (List.mem_cons_of_mem _ member)
    rw [List.cons_append, find?_cons, captureAt?_cons _ here, Option.none_or, ih later]

/-- A word with nothing to escape is closed by the quote of a printed text only if it is that
text. -/
theorem eq_of_closed {w s rest : List Char} (plain : ∀ c ∈ w, c ≠ '"' ∧ c ≠ '\\')
    (closed : w ++ ['"'] <+: s.flatMap Json.escape ++ '"' :: rest) : s = w := by
  induction w generalizing s with
  | nil =>
    cases s with
    | nil => rfl
    | cons c cs =>
      have code := Json.escape_escaped c
      rw [List.flatMap_cons] at closed
      generalize Json.escape c = printed at closed code
      cases code with
      | plain unquoted _ => exact absurd (List.cons_prefix_cons.mp closed).1.symm unquoted
      | _ => simp at closed
  | cons a w ih =>
    have here := plain a List.mem_cons_self
    cases s with
    | nil => simp [here] at closed
    | cons c cs =>
      have code := Json.escape_escaped c
      rw [List.flatMap_cons] at closed
      generalize Json.escape c = printed at closed code
      cases code with
      | plain _ _ =>
        obtain ⟨same, closed⟩ := List.cons_prefix_cons.mp closed
        rw [same, ih (fun c member => plain c (List.mem_cons_of_mem a member)) closed]
      | quote _ => exact absurd (List.cons_prefix_cons.mp closed).1 here.2
      | other _ _ => exact absurd (List.cons_prefix_cons.mp closed).1 here.2

theorem escaped_word : word.flatMap Json.escape = word := by decide

theorem captureAt?_text (s rest : List Char) :
    captureAt? ('"' :: (s.flatMap Json.escape ++ '"' :: rest)) =
      if s = word then afterName? rest else none := by
  by_cases same : s = word
  · rw [if_pos same, same, escaped_word, captureAt?, label_eq]
    cases rest with
    | nil => rfl
    | cons c cs =>
      by_cases colon : c = ':'
      · subst colon
        rfl
      · have other : afterName? (c :: cs) = none := by
          unfold afterName?
          split
          · rename_i found
            cases found
            exact absurd rfl colon
          · rfl
        rw [other]
        simp [word, List.isPrefixOf, Ne.symm colon]
  · have differs : label.isPrefixOf ('"' :: (s.flatMap Json.escape ++ '"' :: rest)) = false := by
      rw [Bool.eq_false_iff]
      intro found
      rw [List.isPrefixOf_iff_prefix, label_eq, List.cons_prefix_cons] at found
      have start : word ++ ['"'] <+: word ++ ['"', ':'] := ⟨[':'], by simp⟩
      have plain : ∀ c ∈ word, c ≠ '"' ∧ c ≠ '\\' := by simp [word]
      exact same (eq_of_closed plain (start.trans found.2))
    rw [if_neg same, captureAt?, differs]
    rfl

theorem captureAt?_closing {rest : List Char} (ahead : rest.head? ≠ some 't') :
    captureAt? ('"' :: rest) = none := by
  have differs : label.isPrefixOf ('"' :: rest) = false := by
    cases rest with
    | nil => rfl
    | cons c cs =>
      have other : 't' ≠ c := fun same => ahead (by rw [same]; rfl)
      simp [label_eq, word, List.isPrefixOf, other]
  simp [captureAt?, differs]

/-- Behind a printed text the search goes on, unless the text ends in the label of a hash. -/
theorem find?_text {rest : List Char} (s : List Char) (ahead : rest.head? ≠ some 't') :
    find? (s.flatMap Json.escape ++ '"' :: rest) =
      if '"' :: word <:+ s then (afterName? rest).or (find? rest) else find? rest := by
  induction s with
  | nil =>
    simp [find?_cons, captureAt?_closing ahead, word]
  | cons c cs ih =>
    have code := Json.escape_escaped c
    rw [List.flatMap_cons, List.append_assoc]
    generalize Json.escape c = printed at code
    cases code with
    | plain unquoted _ =>
      rw [find?_unquoted _ _ (by simpa using Ne.symm unquoted), ih]
      simp [List.suffix_cons_iff, Ne.symm unquoted]
    | other unquoted free =>
      rw [find?_unquoted _ _ (by simpa using free), ih]
      simp [List.suffix_cons_iff, Ne.symm unquoted]
    | quote quoted =>
      subst quoted
      have skipped : find? (['\\', '"'] ++ (cs.flatMap Json.escape ++ '"' :: rest)) =
          find? ('"' :: (cs.flatMap Json.escape ++ '"' :: rest)) :=
        find?_unquoted ['\\'] _ (by decide)
      rw [skipped, find?_cons, captureAt?_text, ih]
      by_cases same : cs = word
      · subst same
        have once : ¬ '"' :: word <:+ word := by decide
        simp [once]
      · simp [List.suffix_cons_iff, same, Ne.symm same]

theorem find?_printText {rest : List Char} (s : String) (ahead : rest.head? ≠ some 't') :
    find? (Json.printText s ++ rest) =
      if NamesHash s then (afterName? rest).or (find? rest) else find? rest := by
  have printed : Json.printText s ++ rest =
      '"' :: (s.toList.flatMap Json.escape ++ '"' :: rest) := by simp [Json.printText]
  rw [printed, find?_cons, captureAt?_text, find?_text _ ahead]
  by_cases same : s.toList = word
  · have once : ¬ '"' :: word <:+ word := by decide
    simp [NamesHash, same, once]
  · simp [NamesHash, same]

/-- What may come behind a printed value: nothing, a comma, or a closing bracket. -/
def Ends (rest : List Char) : Prop := ∀ c ∈ rest.head?, c = ',' ∨ c = ']' ∨ c = '\x7d'

theorem Ends.ahead {rest : List Char} (ends : Ends rest) : rest.head? ≠ some 't' := by
  intro found
  rcases ends 't' found with same | same | same <;> cases same

theorem Ends.unnamed {rest : List Char} (ends : Ends rest) : afterName? rest = none := by
  unfold afterName?
  split
  · rcases ends ':' rfl with same | same | same <;> cases same
  · rfl

theorem quoted?_bare {c : Char} (cs : List Char) (bare : Json.bare c = true) :
    quoted? ((c :: cs).dropWhile Text.isBlank) = none := by
  simp only [Json.bare, Bool.and_eq_true, bne_iff_ne, ne_eq, Bool.not_eq_true'] at bare
  have kept : (c :: cs).dropWhile Text.isBlank = c :: cs := by simp [bare.2]
  rw [kept]
  unfold quoted?
  split
  · rename_i found
    exact absurd (List.cons.inj found).1 bare.1
  · rfl

theorem quoted?_unquoted {cs rest : List Char} (bare : cs.all Json.bare = true) (ends : Ends rest) :
    quoted? ((cs ++ rest).dropWhile Text.isBlank) = none := by
  cases cs with
  | nil =>
    cases rest with
    | nil => rfl
    | cons c rest =>
      refine quoted?_bare rest ?_
      rcases ends c rfl with rfl | rfl | rfl <;> decide
  | cons c cs =>
    rw [List.all_cons, Bool.and_eq_true] at bare
    exact quoted?_bare _ bare.1

theorem quoted?_text (s : String) (rest : List Char) :
    quoted? ((Json.printText s ++ rest).dropWhile Text.isBlank) = some (shown s) := by
  have printed : (Json.printText s ++ rest).dropWhile Text.isBlank =
      '"' :: (s.toList.flatMap Json.escape ++ '"' :: rest) := by
    have quote : Text.isBlank '"' = false := by decide
    simp [Json.printText, quote]
  have cut (cs : List Char) :
      (cs ++ '"' :: rest).takeWhile (· ≠ '"') = cs.takeWhile (· ≠ '"') := by
    induction cs with
    | nil => rfl
    | cons c cs ih => simp only [List.cons_append, List.takeWhile_cons, ih]
  rw [printed, quoted?, cut]
  simp [shown]

/-- Behind the name of a hash, the label captures what the member gives. -/
theorem afterName?_member {name : String} (value : Json) {rest : List Char}
    (named : NamesHash name) (ends : Ends rest) :
    afterName? (':' :: (Json.print value ++ rest)) = ofMember? (name, value) := by
  cases value with
  | text s => rw [Json.print, afterName?, quoted?_text, ofMember?, if_pos named]
  | null =>
    have bare : Json.nullChars.all Json.bare = true := by decide
    exact quoted?_unquoted bare ends
  | bool b =>
    have bare : (Json.boolChars b).all Json.bare = true := by cases b <;> decide
    exact quoted?_unquoted bare ends
  | number n => exact quoted?_unquoted (Json.printNumber_bare n) ends
  | list items =>
    have bare : Json.bare '[' = true := by decide
    exact quoted?_bare (Json.printItems items ++ [']'] ++ rest) bare
  | object members =>
    have bare : Json.bare '\x7b' = true := by decide
    exact quoted?_bare (Json.printMembers members ++ ['\x7d'] ++ rest) bare

theorem find?_skip {c : Char} (cs : List Char) (unquoted : c ≠ '"') :
    find? (c :: cs) = find? cs := by
  rw [find?_cons, captureAt?_cons cs unquoted, Option.none_or]

/-- At a member the search takes what the member gives, or goes on in its value. -/
theorem find?_member (name : String) (value : Json) {rest : List Char} (ends : Ends rest) :
    find? (Json.printText name ++ ':' :: (Json.print value ++ rest)) =
      (ofMember? (name, value)).or (find? (Json.print value ++ rest)) := by
  rw [find?_printText name (by simp), find?_skip _ (by decide)]
  by_cases named : NamesHash name
  · rw [if_pos named, afterName?_member value named ends]
  · have none : ofMember? (name, value) = none := by
      cases value <;> simp [ofMember?, named]
    rw [if_neg named, none, Option.none_or]

theorem unquoted_of_bare {cs : List Char} (bare : cs.all Json.bare = true) : '"' ∉ cs := by
  intro member
  have impossible := List.all_eq_true.mp bare '"' member
  cases impossible

theorem ends_cons {c : Char} (rest : List Char) (closing : c = ',' ∨ c = ']' ∨ c = '\x7d') :
    Ends (c :: rest) := by
  intro found same
  cases same
  exact closing

theorem findSome?_member (name : String) (value : Json) (later : List (String × Json)) :
    ((name, value) :: (value.membersWithin ++ later)).findSome? ofMember? =
      (ofMember? (name, value)).or
        ((value.membersWithin.findSome? ofMember?).or (later.findSome? ofMember?)) := by
  rw [List.findSome?_cons, List.findSome?_append]
  cases ofMember? (name, value) <;> rfl

mutual

/-- The search in a printed value finds the first member that gives a hash, or goes on behind the
value. -/
theorem find?_print : ∀ (value : Json) (rest : List Char), Ends rest →
    find? (Json.print value ++ rest) =
      (value.membersWithin.findSome? ofMember?).or (find? rest)
  | .null, rest, _ => by
    rw [Json.print, find?_unquoted _ rest (by decide)]
    rfl
  | .bool b, rest, _ => by
    rw [Json.print, find?_unquoted _ rest (by cases b <;> decide)]
    rfl
  | .number n, rest, _ => by
    rw [Json.print, find?_unquoted _ rest (unquoted_of_bare (Json.printNumber_bare n))]
    rfl
  | .text s, rest, ends => by
    rw [Json.print, find?_printText s ends.ahead, ends.unnamed, Option.none_or, ite_self]
    rfl
  | .list items, rest, _ => by
    have inner := find?_printItems items (']' :: rest) (ends_cons rest (by decide))
    rw [find?_skip rest (by decide)] at inner
    rw [Json.print, Json.membersWithin, ← inner, List.cons_append, find?_skip _ (by decide),
      List.append_assoc]
    rfl
  | .object members, rest, _ => by
    have inner := find?_printMembers members ('\x7d' :: rest) (ends_cons rest (by decide))
    rw [find?_skip rest (by decide)] at inner
    rw [Json.print, Json.membersWithin, ← inner, List.cons_append, find?_skip _ (by decide),
      List.append_assoc]
    rfl

theorem find?_printItems : ∀ (items : List Json) (rest : List Char), Ends rest →
    find? (Json.printItems items ++ rest) =
      ((Json.membersOfItems items).findSome? ofMember?).or (find? rest)
  | [], rest, _ => rfl
  | [item], rest, ends => by
    rw [Json.printItems, find?_print item rest ends, Json.membersOfItems, Json.membersOfItems,
      List.append_nil]
  | item :: next :: items, rest, ends => by
    have first := find?_print item (',' :: (Json.printItems (next :: items) ++ rest))
      (ends_cons _ (by decide))
    rw [find?_skip _ (by decide), find?_printItems (next :: items) rest ends] at first
    rw [Json.membersOfItems, List.findSome?_append, Option.or_assoc, ← first]
    simp [Json.printItems]

theorem find?_printMembers : ∀ (members : List (String × Json)) (rest : List Char), Ends rest →
    find? (Json.printMembers members ++ rest) =
      ((Json.membersOfMembers members).findSome? ofMember?).or (find? rest)
  | [], rest, _ => rfl
  | [(name, value)], rest, ends => by
    have first := find?_member name value ends
    rw [find?_print value rest ends] at first
    rw [Json.membersOfMembers, Json.membersOfMembers, findSome?_member, List.findSome?_nil,
      Option.or_none, Option.or_assoc, ← first]
    simp [Json.printMembers]
  | (name, value) :: next :: members, rest, ends => by
    have behind := ends_cons (Json.printMembers (next :: members) ++ rest) (.inl rfl)
    have first := find?_member name value behind
    rw [find?_print value _ behind, find?_skip _ (by decide),
      find?_printMembers (next :: members) rest ends] at first
    rw [Json.membersOfMembers, findSome?_member, Option.or_assoc, Option.or_assoc, ← first]
    simp [Json.printMembers]

end

mutual

/-- The value with every text emptied that is not the hash of a member. -/
def hushed : Json → Json
  | .text _ => .text ""
  | .list items => .list (hushedItems items)
  | .object members => .object (hushedMembers members)
  | value => value

def hushedItems : List Json → List Json
  | [] => []
  | item :: rest => hushed item :: hushedItems rest

def hushedMembers : List (String × Json) → List (String × Json)
  | [] => []
  | (name, value) :: rest =>
    (name, if (ofMember? (name, value)).isSome then value else hushed value) :: hushedMembers rest

end

theorem ofMember?_hushed (name : String) (value : Json) :
    ofMember? (name, if (ofMember? (name, value)).isSome then value else hushed value) =
      ofMember? (name, value) := by
  cases value with
  | text s =>
    by_cases named : NamesHash name <;> simp [ofMember?, hushed, named]
  | _ => rfl

mutual

theorem findSome?_hushed : ∀ value : Json,
    (hushed value).membersWithin.findSome? ofMember? = value.membersWithin.findSome? ofMember?
  | .null => rfl
  | .bool _ => rfl
  | .number _ => rfl
  | .text _ => rfl
  | .list items => by
    rw [hushed, Json.membersWithin, Json.membersWithin, findSome?_hushedItems items]
  | .object members => by
    rw [hushed, Json.membersWithin, Json.membersWithin, findSome?_hushedMembers members]

theorem findSome?_hushedItems : ∀ items : List Json,
    (Json.membersOfItems (hushedItems items)).findSome? ofMember? =
      (Json.membersOfItems items).findSome? ofMember?
  | [] => rfl
  | item :: rest => by
    rw [hushedItems, Json.membersOfItems, Json.membersOfItems, List.findSome?_append,
      List.findSome?_append, findSome?_hushed item, findSome?_hushedItems rest]

theorem findSome?_hushedMembers : ∀ members : List (String × Json),
    (Json.membersOfMembers (hushedMembers members)).findSome? ofMember? =
      (Json.membersOfMembers members).findSome? ofMember?
  | [] => rfl
  | (name, value) :: rest => by
    rw [hushedMembers, Json.membersOfMembers, Json.membersOfMembers, findSome?_member,
      findSome?_member, ofMember?_hushed, findSome?_hushedMembers rest]
    split
    · rfl
    · rw [findSome?_hushed value]

end

structure HashOfMember (value : Json) : Prop where
  /-- It is the text of the first member with the name of a hash and a text for its value. -/
  exact : extract value.compact =
    String.ofList ((value.membersWithin.findSome? ofMember?).getD [])
  /-- A text with nothing to escape is shown as it is. -/
  unescaped : ∀ s : String, (∀ c ∈ s.toList, Json.escape c = [c]) → shown s = s.toList
  /-- What stands in any other text does not matter. -/
  contents : ∀ other : Json, hushed other = hushed value →
    extract other.compact = extract value.compact

theorem extract_compact (value : Json) :
    extract value.compact = String.ofList ((value.membersWithin.findSome? ofMember?).getD []) := by
  have found := find?_print value [] (fun _ none => nomatch none)
  rw [List.append_nil, find?, Option.or_none] at found
  rw [extract, Json.compact, String.toList_ofList, found]

theorem takeWhile_unescaped {cs : List Char} (plain : ∀ c ∈ cs, Json.escape c = [c]) :
    (cs.flatMap Json.escape).takeWhile (· ≠ '"') = cs := by
  induction cs with
  | nil => rfl
  | cons c cs ih =>
    have here := plain c List.mem_cons_self
    have unquoted : c ≠ '"' := by
      rintro rfl
      cases here
    rw [List.flatMap_cons, here, List.singleton_append,
      List.takeWhile_cons_of_pos (by simpa using unquoted),
      ih fun d member => plain d (List.mem_cons_of_mem c member)]

theorem hashOfMember (value : Json) : HashOfMember value where
  exact := extract_compact value
  unescaped _ := takeWhile_unescaped
  contents other same := by
    rw [extract_compact, extract_compact, ← findSome?_hushed other, same, findSome?_hushed value]

end TxHash
end NodeHarness
