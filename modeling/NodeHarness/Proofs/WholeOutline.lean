import NodeHarness.Json.Reading

/-! Outlines of whole texts. When a scan comes to the end of a value, nothing in its outline is
broken off, so all of it can be passed over. -/
namespace NodeHarness.Json

open Outline

/-- What a scan gives when it comes to the end of what it scans. -/
def Ended {α : Type} (holds : α → Prop) (scan : α × Option (List UInt8)) : Prop :=
  scan.2.isSome = true → holds scan.1

theorem scanText_ended (seen bytes : List UInt8) :
    Ended (fun t => t.finish = .closed) (scanText seen bytes) := by
  fun_induction scanText seen bytes <;> simp_all [Ended]

theorem scanWord_ended (value : Outline) (word bytes : List UInt8) :
    Ended (· = value) (scanWord value word bytes) := by
  fun_induction scanWord value word bytes <;> simp_all [Ended]

def NumberText.Whole (n : NumberText) : Prop := n.finish = .complete

theorem brokenNumber_ended (n : NumberText) (bytes : List UInt8) :
    Ended NumberText.Whole (brokenNumber n bytes) := nofun

theorem scanExponent_ended {n : NumberText} (begun : n.Whole) (bytes : List UInt8) :
    Ended NumberText.Whole (scanExponent n bytes) := by
  unfold scanExponent
  split
  · exact fun _ => begun
  · split
    · -- with either sign, or without one
      split
      all_goals
        dsimp only
        split
        · exact brokenNumber_ended _ _
        · exact fun _ => rfl
    · exact fun _ => begun

theorem scanFraction_ended {n : NumberText} (begun : n.Whole) (bytes : List UInt8) :
    Ended NumberText.Whole (scanFraction n bytes) := by
  unfold scanFraction
  split
  · dsimp only
    split
    · exact brokenNumber_ended _ _
    · refine scanExponent_ended ?_ _
      rfl
  · exact scanExponent_ended begun _

theorem scanNumber_ended (negative : Bool) (bytes : List UInt8) :
    Ended NumberText.Whole (scanNumber negative bytes) := by
  unfold scanNumber
  dsimp only
  split
  · exact brokenNumber_ended _ _
  · exact nofun
  · refine scanFraction_ended ?_ _
    rfl

theorem skim_list {items : List Outline} (whole : skimItems items = .ok ()) :
    (Outline.list items .closed).skim = .ok () := by
  rw [skim, whole]
  rfl

theorem skim_object {members : List (QuotedText × Outline)} (whole : skimMembers members = .ok ()) :
    (Outline.object members .closed).skim = .ok () := by
  rw [skim, whole]
  rfl

theorem skimItems_cons {item : Outline} {items : List Outline} (first : item.skim = .ok ())
    (later : skimItems items = .ok ()) : skimItems (item :: items) = .ok () := by
  rw [skimItems, first]
  exact later

theorem skimMembers_cons {name : QuotedText} {value : Outline}
    {members : List (QuotedText × Outline)} (closed : name.finish = .closed)
    (first : value.skim = .ok ()) (later : skimMembers members = .ok ()) :
    skimMembers ((name, value) :: members) = .ok () := by
  have named : name.skim = .ok () := by rw [QuotedText.skim, closed]
  rw [skimMembers, named]
  simp only [bind, Except.bind, first, later]

def EndedItems (scan : List Outline × ListEnd × Option (List UInt8)) : Prop :=
  scan.2.2.isSome = true → skimItems scan.1 = .ok () ∧ scan.2.1 = .closed

def EndedMembers (scan : List (QuotedText × Outline) × ObjectEnd × Option (List UInt8)) : Prop :=
  scan.2.2.isSome = true → skimMembers scan.1 = .ok () ∧ scan.2.1 = .closed

/-- What the scans give with some fuel. -/
structure Scans (fuel : Nat) : Prop where
  value : ∀ bytes, Ended (fun o => o.skim = .ok ()) (scanValue fuel bytes)
  items : ∀ bytes, EndedItems (scanItems fuel bytes)
  members : ∀ bytes, EndedMembers (scanMembers fuel bytes)

section Scans

variable {fuel : Nat} (scans : Scans fuel) (bytes : List UInt8)

include scans

theorem scanValue_ended : Ended (fun o => o.skim = .ok ()) (scanValue (fuel + 1) bytes) := by
  have word (value : Outline) (plain : value.skim = .ok ()) (expected rest : List UInt8) :
      Ended (fun o => o.skim = .ok ()) (scanWord value expected rest) := by
    intro ended
    rw [scanWord_ended value expected rest ended, plain]
  have number (negative : Bool) (rest : List UInt8) :
      Ended (fun o => o.skim = .ok ())
        (Outline.number (scanNumber negative rest).1, (scanNumber negative rest).2) := by
    intro ended
    have whole : (scanNumber negative rest).1.finish = .complete := scanNumber_ended _ _ ended
    simp only [skim, NumberText.skim, whole]
  rw [scanValue]
  split
  · exact nofun
  iterate 3
    split
    · exact word _ rfl _ _
  split
  · exact number true _
  split
  · exact number false _
  split
  · intro ended
    have closed := scanText_ended _ _ ended
    simp only [skim, QuotedText.skim, closed]
  split
  · split
    · exact nofun
    · exact fun _ => skim_list rfl
    · intro ended
      obtain ⟨whole, closed⟩ := scans.items _ ended
      dsimp only
      rw [closed]
      exact skim_list whole
  split
  · split
    · exact nofun
    · exact fun _ => skim_object rfl
    · intro ended
      obtain ⟨whole, closed⟩ := scans.members _ ended
      dsimp only
      rw [closed]
      exact skim_object whole
    · exact nofun
  · exact nofun

theorem scanItems_ended : EndedItems (scanItems (fuel + 1) bytes) := by
  rw [scanItems]
  split
  · exact nofun
  · rename_i item rest scanned
    have first : item.skim = .ok () := by
      have ended := scans.value bytes
      rw [scanned] at ended
      exact ended rfl
    split
    · exact nofun
    · exact fun _ => ⟨skimItems_cons first rfl, rfl⟩
    · split
      · exact nofun
      · exact nofun
      · intro ended
        obtain ⟨later, closed⟩ := scans.items _ ended
        exact ⟨skimItems_cons first later, closed⟩
    · exact nofun

theorem scanMembers_ended : EndedMembers (scanMembers (fuel + 1) bytes) := by
  rw [scanMembers]
  split
  · exact nofun
  · rename_i name rest scanned
    have closedName : name.finish = .closed := by
      have ended := scanText_ended [] bytes
      rw [scanned] at ended
      exact ended rfl
    split
    · exact nofun
    · rename_i behind _
      split
      · exact nofun
      · rename_i value rest scanned
        have first : value.skim = .ok () := by
          have ended := scans.value behind
          rw [scanned] at ended
          exact ended rfl
        split
        · exact nofun
        · exact fun _ => ⟨skimMembers_cons closedName first rfl, rfl⟩
        · split
          · exact nofun
          · exact nofun
          · intro ended
            obtain ⟨later, closed⟩ := scans.members _ ended
            exact ⟨skimMembers_cons closedName first later, closed⟩
          · exact nofun
        · exact nofun
    · exact nofun

end Scans

theorem scans_all (fuel : Nat) : Scans fuel := by
  induction fuel with
  | zero => exact ⟨fun _ => nofun, fun _ => nofun, fun _ => nofun⟩
  | succ fuel scans => exact ⟨scanValue_ended scans, scanItems_ended scans, scanMembers_ended scans⟩

/-- A clean document can be passed over as a whole. -/
theorem documentOf_skim {bytes : List UInt8} (clean : (documentOf bytes).clean = true) :
    (documentOf bytes).root.skim = .ok () := by
  refine (scans_all (2 * bytes.length + 2)).value bytes ?_
  simp only [documentOf, outlineOf] at clean
  split at clean
  · cases clean
  · rename_i rest ended
    rw [ended]
    rfl

end NodeHarness.Json
