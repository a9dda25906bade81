import NodeHarness.Balances
import NodeHarness.Proofs.SpelledNumbers

/-! Balances are read back from their prints, and their amounts are what they say. The list of coins
stands in an object, and so does every coin; what other members there are, and in which order, makes
no difference. The amount of a denomination is the one of its first coin, or no amount at all. -/
namespace NodeHarness

open Json Json.Outline

namespace Json

/-- The known members stand among others of different names, in any order. -/
def Among (known members : List (String × Json)) : Prop :=
  ∃ others, members.Perm (known ++ others) ∧ ∀ other ∈ others, other.1 ∉ known.map Prod.fst

/-- The names and values of an object, as they are found in its print. -/
def printed (members : List (String × Json)) : List (String × Outline) :=
  members.map fun member => (member.1, member.2.outline)

theorem named_printed (members : List (String × Json)) :
    Named (outlineMembers members) (printed members) := by
  induction members with
  | nil => rfl
  | cons member rest ih =>
    obtain ⟨name, v⟩ := member
    rw [outlineMembers, named_cons]
    exact ⟨name, printed rest, decode_escapedBytes name, rfl, ih⟩

theorem skim_outline (v : Json) : v.outline.skim = .ok () := by
  have read := documentOf_compact v
  have skimmed := documentOf_skim (congrArg Document.clean read)
  rw [read] at skimmed
  exact skimmed

theorem skimMembers_outline (members : List (String × Json)) :
    skimMembers (outlineMembers members) = .ok () := by
  have whole := skim_outline (.object members)
  rw [outline] at whole
  exact (object_plain whole).2

theorem valuesOf_printed (wanted : String → Bool) (members : List (String × Json)) :
    valuesOf wanted (printed members) =
      (members.filter fun member => wanted member.1).map fun member => member.2.outline := by
  rw [valuesOf, printed, List.filter_map, List.map_map]
  rfl

/-- A known member is the only one of its name. -/
theorem Among.valuesOf {known members : List (String × Json)} (among : Among known members)
    {name : String} {v : Json}
    (only : known.filter (fun member => member.1 == name) = [(name, v)]) :
    valuesOf (· == name) (printed members) = [v.outline] := by
  obtain ⟨others, order, apart⟩ := among
  have mem : (name, v) ∈ known := List.mem_of_mem_filter (only ▸ List.mem_singleton_self _)
  have none : others.filter (fun member => member.1 == name) = [] := by
    rw [List.filter_eq_nil_iff]
    intro other member same
    rw [beq_iff_eq] at same
    exact apart other member (List.mem_map.mpr ⟨_, mem, same.symm⟩)
  have single := order.filter fun member => member.1 == name
  rw [List.filter_append, only, none, List.append_nil] at single
  rw [valuesOf_printed, List.perm_singleton.mp single]
  rfl

theorem mapItems_outline {α : Type} {read : Outline → Except Fault α} {as : List α}
    {items : List Json} (each : List.Forall₂ (fun a item => read item.outline = .ok a) as items) :
    mapItems read (outlineItems items) = .ok as := by
  induction each with
  | nil => rfl
  | cons first _ ih =>
    rw [outlineItems, mapItems, first, ih]
    rfl

end Json

namespace Coin

/-- Both fields of `q` are those of `p`, filled by the values of their names. -/
def Filled (p : Partial) (named : List (String × Outline)) (q : Partial) : Prop :=
  Fills decodeText p.denom (valuesOf (· == "denom") named) q.denom ∧
    Fills decodeText p.amount (valuesOf (· == "amount") named) q.amount

theorem filled_nil (p q : Partial) : Filled p [] q ↔ q = p := by
  obtain ⟨d, a⟩ := p
  obtain ⟨d', a'⟩ := q
  rw [Partial.mk.injEq]
  exact and_congr (fills_nil _) (fills_nil _)

/-- Taking one member fills its field and leaves the other alone. -/
theorem filled_cons (p q : Partial) (name : String) (o : Outline)
    (rest : List (String × Outline)) :
    Filled p ((name, o) :: rest) q ↔ ∃ next, Takes take p name o next ∧ Filled next rest q := by
  simp only [Filled, valuesOf_cons, beq_iff_eq]
  by_cases denom : name = "denom"
  · subst denom
    simp only [Takes, take, if_true, SyncInfo.readOnce_taken, fills_cons, String.reduceEq, if_false]
    grind
  by_cases amount : name = "amount"
  · subst amount
    simp only [Takes, take, if_true, SyncInfo.readOnce_taken, fills_cons, String.reduceEq, if_false]
    grind
  · simp [Takes, take, denom, amount]

/-- An object that has the two members of the coin, among others. -/
inductive Prints (coin : Coin) : Json → Prop
  | object {members : List (String × Json)} :
    Among [("denom", .text coin.denom), ("amount", .text coin.amount)] members →
    Prints coin (.object members)

section Printed

variable {coin : Coin} {v : Json} (prints : Prints coin v) {depth : Nat} (deep : ¬ depth ≤ 1)

include prints deep

theorem decode_outline : decode depth v.outline = .ok coin := by
  obtain @⟨members, among⟩ := prints
  have denom : valuesOf (· == "denom") (printed members) = [(Json.text coin.denom).outline] :=
    among.valuesOf rfl
  have amount : valuesOf (· == "amount") (printed members) = [(Json.text coin.amount).outline] :=
    among.valuesOf rfl
  have filled : Filled ⟨none, none⟩ (printed members) ⟨some coin.denom, some coin.amount⟩ := by
    rw [Filled, denom, amount]
    exact ⟨SyncInfo.fills_required.mpr ⟨_, rfl, decode_escapedBytes _⟩,
      SyncInfo.fills_required.mpr ⟨_, rfl, decode_escapedBytes _⟩⟩
  have folded := (foldMembers_fills filled_nil filled_cons (skimMembers_outline members) _ _).mpr
    ⟨_, named_printed members, filled⟩
  rw [outline, decode, decodeRecord, if_neg deep, ofMembers, folded]
  rfl

end Printed

end Coin

namespace Balances

/-- An object that has the list of the coins as its member, among others. -/
inductive Prints (coins : List Coin) : Json → Prop
  | object {items : List Json} {members : List (String × Json)} :
    List.Forall₂ Coin.Prints coins items → Among [("balances", .list items)] members →
    Prints coins (.object members)

/-- A field for the coins is filled by the values of its name. -/
def Filled (depth : Nat) (held : Option (List Coin)) (named : List (String × Outline))
    (filled : Option (List Coin)) : Prop :=
  Fills (decodeCoins depth) held (valuesOf (· == "balances") named) filled

theorem filled_cons (depth : Nat) (p q : Option (List Coin)) (name : String) (o : Outline)
    (rest : List (String × Outline)) :
    Filled depth p ((name, o) :: rest) q ↔
      ∃ next, Takes (take depth) p name o next ∧ Filled depth next rest q := by
  rw [Filled, valuesOf_cons]
  by_cases balances : name = "balances"
  · subst balances
    simp [Takes, take, SyncInfo.readOnce_taken, fills_cons, Filled]
  · simp [Takes, take, balances, Filled]

theorem decodeCoins_outline {coins : List Coin} {items : List Json}
    (each : List.Forall₂ Coin.Prints coins items) {depth : Nat} (deep : ¬ depth ≤ 2) :
    decodeCoins depth (Json.list items).outline = .ok coins := by
  have deeper : ¬ depth - 1 ≤ 1 := by omega
  have read := mapItems_outline (each.imp fun _ _ prints => Coin.decode_outline prints deeper)
  rw [outline, decodeCoins, if_neg (by omega), read]
  rfl

theorem decode_outline {coins : List Coin} {v : Json} (prints : Prints coins v) {depth : Nat}
    (deep : ¬ depth ≤ 3) : decode depth v.outline = .ok ⟨coins⟩ := by
  obtain @⟨items, members, each, among⟩ := prints
  have list : valuesOf (· == "balances") (printed members) = [(Json.list items).outline] :=
    among.valuesOf rfl
  have filled : Filled (depth - 1) none (printed members) (some coins) := by
    rw [Filled, list]
    exact SyncInfo.fills_required.mpr ⟨_, rfl, decodeCoins_outline each (by omega)⟩
  have folded := (foldMembers_fills (fun _ _ => fills_nil _) (filled_cons (depth - 1))
    (skimMembers_outline members) _ _).mpr ⟨_, named_printed members, filled⟩
  rw [outline, decode, decodeRecord, if_neg (by omega), ofMembers, folded]
  rfl

theorem ofOutput_compact {coins : List Coin} {v : Json} (prints : Prints coins v) :
    ofOutput (Text.Utf8.encode v.compact) = .ok ⟨coins⟩ := by
  have read := documentOf_compact v
  have deep : ¬ depthLimit ≤ 3 := by decide
  rw [ofOutput, decodeOutput, read, ofDocument, Document.decode, decode_outline prints deep]
  rfl

def plainCoin (coin : Coin) : Json :=
  .object [("denom", .text coin.denom), ("amount", .text coin.amount)]

/-- The object with nothing but the coins. -/
def plain (coins : List Coin) : Json := .object [("balances", .list (coins.map plainCoin))]

theorem among_self (known : List (String × Json)) : Among known known :=
  ⟨[], by rw [List.append_nil], by simp⟩

theorem plain_prints (coins : List Coin) : Prints coins (plain coins) := by
  refine .object ?_ (among_self _)
  rw [List.forall₂_map_right_iff]
  exact List.forall₂_same.mpr fun coin _ => .object (among_self _)

/-- The first coin of a denomination. -/
def First (coins : List Coin) (denom : String) (coin : Coin) : Prop :=
  ∃ before behind, coins = before ++ coin :: behind ∧ coin.denom = denom ∧
    ∀ other ∈ before, other.denom ≠ denom

section Amount

variable {coins : List Coin} {denom : String}

theorem find_first {coin : Coin} (first : First coins denom coin) :
    coins.find? (fun coin => coin.denom = denom) = some coin := by
  obtain ⟨before, behind, rfl, same, others⟩ := first
  rw [List.find?_eq_some_iff_append]
  refine ⟨by simpa using same, before, behind, rfl, ?_⟩
  intro other member
  simpa using others other member

theorem amountOf_absent (absent : ∀ coin ∈ coins, coin.denom ≠ denom) :
    amountOf ⟨coins⟩ denom = some 0 := by
  have none : coins.find? (fun coin => coin.denom = denom) = none := by
    rw [List.find?_eq_none]
    intro coin member
    simpa using absent coin member
  rw [amountOf, none]

theorem amountOf_first {coin : Coin} (first : First coins denom coin) (n : Nat) :
    amountOf ⟨coins⟩ denom = some n ↔
      Text.Decimal.Denotes coin.amount.toList n ∧ n < 2 ^ 128 := by
  have positive : 0 < Text.Decimal.words128 := by decide
  have bound : Text.Decimal.words128 = 2 ^ 128 := by decide
  rw [← bound, ← Text.Decimal.readBelow_eq_ok positive, amountOf, find_first first]
  dsimp only
  rw [Text.Decimal.read128]
  cases Text.Decimal.readBelow Text.Decimal.words128 coin.amount.toList <;> simp [Except.toOption]

end Amount

/-- How the coins are read back, and what their amounts are. -/
structure ReadsBack (coins : List Coin) : Prop where
  plain : Prints coins (plain coins)
  decoded : ∀ document, Prints coins document →
    ofOutput (Text.Utf8.encode document.compact) = .ok ⟨coins⟩
  absent : ∀ denom, (∀ coin ∈ coins, coin.denom ≠ denom) → amountOf ⟨coins⟩ denom = some 0
  first : ∀ denom coin, First coins denom coin → ∀ n, amountOf ⟨coins⟩ denom = some n ↔
    Text.Decimal.Denotes coin.amount.toList n ∧ n < 2 ^ 128
  /-- What stands for no amount is none, and not zero. -/
  refused : ∀ denom coin, First coins denom coin →
    (∀ n < 2 ^ 128, ¬ Text.Decimal.Denotes coin.amount.toList n) →
    amountOf ⟨coins⟩ denom = none
  written : ∀ denom n, First coins denom ⟨denom, Text.Decimal.text n⟩ → n < 2 ^ 128 →
    amountOf ⟨coins⟩ denom = some n
  /-- There is no other case. -/
  present : ∀ denom, (∃ coin ∈ coins, coin.denom = denom) → ∃ coin, First coins denom coin

/-- Every list of coins is read back from every print of it, and an amount is never misread. -/
theorem coins_readBack (coins : List Coin) : ReadsBack coins where
  plain := plain_prints coins
  decoded _ prints := ofOutput_compact prints
  absent _ absent := amountOf_absent absent
  first _ _ first n := amountOf_first first n
  refused denom coin first malformed := by
    cases amount : amountOf ⟨coins⟩ denom with
    | none => rfl
    | some n =>
      obtain ⟨denotes, fits⟩ := (amountOf_first first n).mp amount
      exact absurd denotes (malformed n fits)
  written denom n first fits := by
    have digits : (Text.Decimal.text n).toList = Text.Decimal.digits n := by
      rw [Text.Decimal.text, String.toList_ofList]
    refine (amountOf_first first n).mpr ⟨⟨_, Text.Decimal.digits_digits n, .inl digits, ?_⟩, fits⟩
    exact Text.Decimal.value_digits n
  present denom some := by
    obtain ⟨found, there⟩ := Option.isSome_iff_exists.mp
      (List.find?_isSome.mpr (some.imp fun _ coin => ⟨coin.1, decide_eq_true coin.2⟩))
    obtain ⟨same, before, behind, split, others⟩ := List.find?_eq_some_iff_append.mp there
    refine ⟨found, before, behind, split, of_decide_eq_true same, ?_⟩
    intro other member
    simpa using others other member

/-- A sign and zeros in front count for nothing, and the second coin is not looked at. -/
example : amountOf ⟨[⟨"pylon", "+007"⟩, ⟨"pylon", "1"⟩]⟩ "pylon" = some 7 := by decide

end Balances
end NodeHarness
