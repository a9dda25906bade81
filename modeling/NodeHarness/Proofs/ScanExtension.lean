import NodeHarness.Proofs.IntegerText
import NodeHarness.Proofs.WholeOutline

/-! A scan does not look behind what it scans. A value that is scanned to its end is scanned in the
same way, with any more fuel, in front of every input that no number could go on with. So a text can
be put into the place of a member, and the whole is read as the object with that value in it. -/
namespace NodeHarness.Json

variable {tail : List UInt8}

/-- What is scanned to its end is scanned in front of a tail as well. -/
def Extends {α : Type} (tail : List UInt8) (scan longer : α × Option (List UInt8)) : Prop :=
  ∀ rest, scan.2 = some rest → longer = (scan.1, some (rest ++ tail))

theorem Extends.of_none {α : Type} {scan longer : α × Option (List UInt8)}
    (unended : scan.2 = none) : Extends tail scan longer := by
  intro rest ended
  rw [unended] at ended
  cases ended

theorem scanText_extends (seen bytes : List UInt8) :
    Extends tail (scanText seen bytes) (scanText seen (bytes ++ tail)) := by
  fun_induction scanText seen bytes with
  | case2 seen a b c d rest hex ih =>
    simp only [List.cons_append]
    rw [scanText, if_pos hex]
    exact ih
  | case5 seen e rest _ other short ih =>
    simp only [List.cons_append]
    rw [scanText, if_neg other, if_pos short]
    · exact ih
    · intros
      contradiction
  | case7 seen rest =>
    intro after ended
    cases ended
    simp [scanText]
  | case10 seen b rest _ _ quote straight printed ih =>
    rw [List.cons_append, scanText_plain _ _ ⟨quote, straight, printed⟩]
    exact ih
  | _ => exact .of_none rfl

theorem scanWord_extends (value : Outline) (word bytes : List UInt8) :
    Extends tail (scanWord value word bytes) (scanWord value word (bytes ++ tail)) := by
  fun_induction scanWord value word bytes <;> simp_all [Extends, scanWord]

theorem Extends.map {α β : Type} {scan longer : α × Option (List UInt8)}
    (goes : Extends tail scan longer) (f : α → β) :
    Extends tail (f scan.1, scan.2) (f longer.1, longer.2) := by
  intro rest ended
  rw [goes rest ended]

theorem takeDigits_extends (stop : ∀ b ∈ tail.head?, isDigitByte b = false) (bytes : List UInt8) :
    takeDigits (bytes ++ tail) = ((takeDigits bytes).1, (takeDigits bytes).2 ++ tail) := by
  induction bytes with
  | nil => exact takeDigits_stop stop
  | cons b bytes ih =>
    cases digit : isDigitByte b with
    | false => simp [takeDigits, digit]
    | true =>
      simp only [takeDigits, Prod.mk.injEq] at ih
      simp [takeDigits, digit, ih]

/-- The sign of an exponent, and what is behind it. -/
def exponentSign : List UInt8 → Bool × List UInt8
  | 0x2b :: rest => (false, rest)
  | 0x2d :: rest => (true, rest)
  | rest => (false, rest)

theorem exponentSign_append (c : UInt8) (bytes tail : List UInt8) :
    exponentSign (c :: bytes ++ tail) =
      ((exponentSign (c :: bytes)).1, (exponentSign (c :: bytes)).2 ++ tail) := by
  by_cases plus : c = 0x2b
  · subst plus
    rfl
  by_cases minus : c = 0x2d
  · subst minus
    rfl
  · simp [exponentSign, plus, minus]

/-- Takes digits, of which there must be some, and goes on behind them. -/
def withDigits (make : List Nat → NumberText)
    (go : NumberText → List UInt8 → NumberText × Option (List UInt8)) (bytes : List UInt8) :
    NumberText × Option (List UInt8) :=
  if (takeDigits bytes).1 = [] then brokenNumber (make (takeDigits bytes).1) bytes
  else go (make (takeDigits bytes).1) (takeDigits bytes).2

theorem scanExponent_mark (n : NumberText) {e : UInt8} (mark : e = 0x65 ∨ e = 0x45)
    (bytes : List UInt8) :
    scanExponent n (e :: bytes) =
      withDigits (fun digits => ⟨n.negative, n.whole, n.fraction,
        some ((exponentSign bytes).1, digits), .complete⟩) (fun n after => (n, some after))
        (exponentSign bytes).2 := by
  refine (if_pos mark).trans ?_
  split
  · rfl
  · rfl
  · rename_i plus minus
    have unsigned : exponentSign bytes = (false, bytes) := by
      unfold exponentSign
      split
      · exact absurd rfl (plus _)
      · exact absurd rfl (minus _)
      · rfl
    rw [unsigned]
    rfl

theorem scanFraction_point (n : NumberText) (bytes : List UInt8) :
    scanFraction n (0x2e :: bytes) =
      withDigits (fun digits => ⟨n.negative, n.whole, some digits, none, .complete⟩) scanExponent
        bytes := rfl

theorem scanFraction_other (n : NumberText) {bytes : List UInt8}
    (other : ∀ b ∈ bytes.head?, b ≠ 0x2e) : scanFraction n bytes = scanExponent n bytes := by
  unfold scanFraction
  split
  · exact absurd rfl (other 0x2e rfl)
  · rfl

section Number

variable (stop : StopsNumber tail)

include stop

theorem digits_extend (bytes : List UInt8) :
    takeDigits (bytes ++ tail) = ((takeDigits bytes).1, (takeDigits bytes).2 ++ tail) :=
  takeDigits_extends (fun b first => (stop b first).1) bytes

theorem withDigits_extends {make : List Nat → NumberText}
    {go : NumberText → List UInt8 → NumberText × Option (List UInt8)}
    (goes : ∀ n bytes, Extends tail (go n bytes) (go n (bytes ++ tail))) (bytes : List UInt8) :
    Extends tail (withDigits make go bytes) (withDigits make go (bytes ++ tail)) := by
  unfold withDigits
  rw [digits_extend stop]
  split
  · exact .of_none rfl
  · exact goes _ _

theorem scanExponent_extends (n : NumberText) (bytes : List UInt8) :
    Extends tail (scanExponent n bytes) (scanExponent n (bytes ++ tail)) := by
  cases bytes with
  | nil =>
    intro rest ended
    cases ended
    cases tail with
    | nil => rfl
    | cons b tail =>
      obtain ⟨_, _, small, big⟩ := stop b rfl
      simp [scanExponent, small, big]
  | cons e bytes =>
    by_cases mark : e = 0x65 ∨ e = 0x45
    · rw [List.cons_append, scanExponent_mark n mark, scanExponent_mark n mark]
      cases bytes with
      | nil => exact .of_none rfl
      | cons c bytes =>
        rw [exponentSign_append]
        apply withDigits_extends stop
        intro n bytes rest ended
        cases ended
        rfl
    · simp only [List.cons_append, scanExponent, if_neg mark]
      intro rest ended
      cases ended
      rfl

theorem scanFraction_extends (n : NumberText) (bytes : List UInt8) :
    Extends tail (scanFraction n bytes) (scanFraction n (bytes ++ tail)) := by
  by_cases point : ∃ rest, bytes = 0x2e :: rest
  · obtain ⟨rest, rfl⟩ := point
    rw [List.cons_append, scanFraction_point, scanFraction_point]
    exact withDigits_extends stop (scanExponent_extends stop) rest
  · have other : ∀ b ∈ bytes.head?, b ≠ 0x2e := by
      rintro b first rfl
      obtain ⟨rest, same⟩ := List.head?_eq_some_iff.mp first
      exact point ⟨rest, same⟩
    have behind : ∀ b ∈ (bytes ++ tail).head?, b ≠ 0x2e := by
      intro b first
      cases bytes with
      | nil => exact (stop b first).2.1
      | cons c bytes => exact other b first
    rw [scanFraction_other n other, scanFraction_other n behind]
    exact scanExponent_extends stop n bytes

theorem scanNumber_extends (negative : Bool) (bytes : List UInt8) :
    Extends tail (scanNumber negative bytes) (scanNumber negative (bytes ++ tail)) := by
  unfold scanNumber
  rw [digits_extend stop]
  dsimp only
  split
  · exact .of_none rfl
  · exact .of_none rfl
  · exact scanFraction_extends stop _ _

end Number

theorem skipSpace_extends {b : UInt8} {bytes rest : List UInt8}
    (front : skipSpace bytes = b :: rest) : skipSpace (bytes ++ tail) = b :: (rest ++ tail) := by
  have some : (skipSpace bytes).isEmpty = false := by rw [front]; rfl
  unfold skipSpace at front some ⊢
  rw [List.dropWhile_append, some, front]
  rfl

/-- What is scanned of the parts of a list or an object extends to a tail as well. -/
def ExtendsParts {α β : Type} (tail : List UInt8) (scan longer : α × β × Option (List UInt8)) :
    Prop :=
  ∀ rest, scan.2.2 = some rest → longer = (scan.1, scan.2.1, some (rest ++ tail))

theorem ExtendsParts.of_none {α β : Type} {scan longer : α × β × Option (List UInt8)}
    (unended : scan.2.2 = none) : ExtendsParts tail scan longer := by
  intro rest ended
  rw [unended] at ended
  cases ended

/-- With some fuel the scans extend to a tail, and with any more. -/
structure Extend (tail : List UInt8) (fuel : Nat) : Prop where
  value : ∀ more bytes,
    Extends tail (scanValue fuel bytes) (scanValue (fuel + more) (bytes ++ tail))
  items : ∀ more bytes,
    ExtendsParts tail (scanItems fuel bytes) (scanItems (fuel + more) (bytes ++ tail))
  members : ∀ more bytes,
    ExtendsParts tail (scanMembers fuel bytes) (scanMembers (fuel + more) (bytes ++ tail))

section Values

variable {fuel : Nat} (extend : Extend tail fuel) (more : Nat) (bytes : List UInt8)

include extend

/-- A value that is scanned as a part is scanned with its end. -/
theorem Extend.part {item : Outline} {rest : List UInt8}
    (scanned : scanValue fuel bytes = (item, some rest)) :
    scanValue (fuel + more) (bytes ++ tail) = (item, some (rest ++ tail)) := by
  have longer := extend.value more bytes rest (by rw [scanned])
  rw [scanned] at longer
  exact longer

theorem scanItems_extends : ExtendsParts tail (scanItems (fuel + 1) bytes)
    (scanItems (fuel + more + 1) (bytes ++ tail)) := by
  rw [scanItems]
  split
  · exact .of_none rfl
  · rename_i item rest scanned
    rw [scanItems, extend.part more bytes scanned]
    dsimp only
    cases front : skipSpace rest with
    | nil => exact .of_none rfl
    | cons b rest =>
      rw [skipSpace_extends front]
      by_cases closes : b = 0x5d
      · subst closes
        intro after ended
        cases ended
        rfl
      by_cases comma : b = 0x2c
      · subst comma
        cases next : skipSpace rest with
        | nil =>
          intro after ended
          simp [next] at ended
        | cons c later =>
          have behind : skipSpace (rest ++ tail) = c :: (later ++ tail) := skipSpace_extends next
          by_cases trailing : c = 0x5d
          · subst trailing
            intro after ended
            simp [next] at ended
          · intro after ended
            simp only [next, behind, List.cons.injEq, trailing, false_and, imp_self,
              implies_true] at ended ⊢
            exact congrArg (fun p => (item :: p.1, p.2))
              (extend.items more (c :: later) after ended)
      · intro after ended
        simp only [List.cons.injEq, closes, comma, false_and, imp_self, implies_true,
          reduceCtorEq] at ended

/-- What is behind a member: the end of the object, or a comma and more members. -/
def afterMember (fuel : Nat) (name : QuotedText) (value : Outline) (rest : List UInt8) :
    List (QuotedText × Outline) × ObjectEnd × Option (List UInt8) :=
  match skipSpace rest with
  | [] => ([(name, value)], .endOfInput, none)
  | 0x7d :: after => ([(name, value)], .closed, some after)
  | 0x2c :: rest =>
    match skipSpace rest with
    | [] => ([(name, value)], .endAfterComma, none)
    | 0x7d :: _ => ([(name, value)], .trailingComma, none)
    | 0x22 :: rest =>
      let (members, finish, after) := scanMembers fuel rest
      ((name, value) :: members, finish, after)
    | _ => ([(name, value)], .otherAfterComma, none)
  | _ => ([(name, value)], .badSeparator, none)

theorem afterMember_extends (name : QuotedText) (value : Outline) :
    ExtendsParts tail (afterMember fuel name value bytes)
      (afterMember (fuel + more) name value (bytes ++ tail)) := by
  unfold afterMember
  cases front : skipSpace bytes with
  | nil => exact .of_none rfl
  | cons b rest =>
    rw [skipSpace_extends front]
    by_cases closes : b = 0x7d
    · subst closes
      intro after ended
      cases ended
      rfl
    by_cases comma : b = 0x2c
    · subst comma
      cases next : skipSpace rest with
      | nil =>
        intro after ended
        simp [next] at ended
      | cons c later =>
        have behind : skipSpace (rest ++ tail) = c :: (later ++ tail) := skipSpace_extends next
        by_cases quoted : c = 0x22
        · subst quoted
          intro after ended
          simp only [next, behind] at ended ⊢
          exact congrArg (fun p => ((name, value) :: p.1, p.2))
            (extend.members more later after ended)
        · intro after ended
          simp only [next] at ended
          split at ended
          · cases ended
          · cases ended
          · rename_i same
            exact absurd (List.cons.inj same).1 quoted
          · cases ended
    · intro after ended
      simp only [List.cons.injEq, closes, comma, false_and, imp_self, implies_true,
        reduceCtorEq] at ended

theorem scanMembers_extends : ExtendsParts tail (scanMembers (fuel + 1) bytes)
    (scanMembers (fuel + more + 1) (bytes ++ tail)) := by
  rw [scanMembers]
  split
  · exact .of_none rfl
  · rename_i name rest named
    have quoted : scanText [] (bytes ++ tail) = (name, some (rest ++ tail)) := by
      have longer : scanText [] (bytes ++ tail) = ((scanText [] bytes).1, some (rest ++ tail)) :=
        scanText_extends [] bytes rest (by rw [named])
      rw [named] at longer
      exact longer
    rw [scanMembers, quoted]
    dsimp only
    cases front : skipSpace rest with
    | nil => exact .of_none rfl
    | cons b rest =>
      rw [skipSpace_extends front]
      by_cases colon : b = 0x3a
      · subst colon
        cases scanned : scanValue fuel rest with
        | mk value behind =>
          cases behind with
          | none =>
            simp only [scanned]
            exact .of_none rfl
          | some rest =>
            simp only [scanned, extend.part more _ scanned]
            exact afterMember_extends extend more rest name value
      · intro after ended
        simp only [List.cons.injEq, colon, false_and, imp_self, implies_true, reduceCtorEq] at ended

theorem scanValue_extends (stop : StopsNumber tail) :
    Extends tail (scanValue (fuel + 1) bytes) (scanValue (fuel + more + 1) (bytes ++ tail)) := by
  rw [scanValue]
  cases front : skipSpace bytes with
  | nil => exact .of_none rfl
  | cons b rest =>
    rw [scanValue, skipSpace_extends front]
    dsimp only
    iterate 3
      split
      · exact scanWord_extends _ _ _
    split
    · exact (scanNumber_extends stop true rest).map Outline.number
    split
    · exact (scanNumber_extends stop false (b :: rest)).map Outline.number
    split
    · exact (scanText_extends [] rest).map Outline.text
    split
    · cases inner : skipSpace rest with
      | nil => exact .of_none rfl
      | cons c rest =>
        rw [skipSpace_extends inner]
        by_cases closes : c = 0x5d
        · subst closes
          intro after ended
          cases ended
          rfl
        · have later := extend.items more (c :: rest)
          intro after ended
          simp only [List.cons.injEq, closes, false_and, imp_self, implies_true] at ended ⊢
          exact congrArg (fun p => (Outline.list p.1 p.2.1, p.2.2)) (later after ended)
    split
    · cases inner : skipSpace rest with
      | nil => exact .of_none rfl
      | cons c rest =>
        rw [skipSpace_extends inner]
        by_cases closes : c = 0x7d
        · subst closes
          intro after ended
          cases ended
          rfl
        by_cases quoted : c = 0x22
        · subst quoted
          have later := extend.members more rest
          intro after ended
          exact congrArg (fun p => (Outline.object p.1 p.2.1, p.2.2)) (later after ended)
        · intro after ended
          simp only [List.cons.injEq, closes, quoted, false_and, imp_self, implies_true,
            reduceCtorEq] at ended
    · exact .of_none rfl

end Values

theorem extend_all (stop : StopsNumber tail) (fuel : Nat) : Extend tail fuel := by
  induction fuel with
  | zero =>
    constructor
    · intro more bytes
      rw [scanValue]
      exact .of_none rfl
    · intro more bytes
      rw [scanItems]
      exact .of_none rfl
    · intro more bytes
      rw [scanMembers]
      exact .of_none rfl
  | succ fuel extend =>
    constructor
    · intro more bytes
      rw [Nat.add_right_comm]
      exact scanValue_extends extend more bytes stop
    · intro more bytes
      rw [Nat.add_right_comm]
      exact scanItems_extends extend more bytes
    · intro more bytes
      rw [Nat.add_right_comm]
      exact scanMembers_extends extend more bytes

/-- An object with one member. -/
def Outline.only (name : String) (o : Outline) : Outline :=
  .object [(⟨escapedBytes name.toList, .closed⟩, o)] .closed

/-- The text of an object with one member, around the text of its value. -/
def around (name : String) (bytes : List UInt8) : List UInt8 :=
  0x7b :: 0x22 :: (escapedBytes name.toList ++ 0x22 :: 0x3a :: (bytes ++ [0x7d]))

theorem documentOf_around {bytes : List UInt8} {o : Outline} (name : String)
    (read : documentOf bytes = ⟨o, true⟩) :
    documentOf (around name bytes) = ⟨.only name o, true⟩ := by
  obtain ⟨rest, scanned, space⟩ := documentOf_clean.mp read
  have size : (around name bytes).length =
      (escapedBytes name.toList).length + bytes.length + 5 := by
    simp only [around, List.length_cons, List.length_append, List.length_nil]
    omega
  obtain ⟨more, fuel⟩ : ∃ more, 2 * (around name bytes).length = 2 * bytes.length + 2 + more :=
    ⟨2 * (escapedBytes name.toList).length + 8, by omega⟩
  have value : scanValue (2 * (around name bytes).length) (bytes ++ [0x7d]) =
      (o, some (rest ++ [0x7d])) := by
    rw [fuel]
    exact (extend_all (stops_brace []) _).part more bytes scanned
  have brace : skipSpace (rest ++ [0x7d]) = [0x7d] := skipSpace_front space [0x7d]
  have members : scanMembers (2 * (around name bytes).length + 1)
      (escapedBytes name.toList ++ 0x22 :: 0x3a :: (bytes ++ [0x7d])) =
        ([(⟨escapedBytes name.toList, .closed⟩, o)], .closed, some []) := by
    have colon : skipSpace (0x3a :: (bytes ++ [0x7d])) = 0x3a :: (bytes ++ [0x7d]) := rfl
    rw [scanMembers, scanText_escapedBytes]
    simp only [colon, value, brace, List.reverse_nil, List.nil_append]
  apply documentOf_clean.mpr
  exact ⟨[], scanValue_object members, by simp⟩

end NodeHarness.Json
