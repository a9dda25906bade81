import NodeHarness.Account
import NodeHarness.Proofs.NumberSpelling

/-! Which objects are accounts. The members are gone through once and in order, but the four
fields do not meet: each takes the values of its own name, at most one of them, and one that can
be read. -/
namespace NodeHarness.Account

open Json

/-- The values that the members of a name have, in order. -/
def values (name : String) (members : List (String × Json)) : List Json :=
  (members.filter fun member => member.1 == name).map Prod.snd

theorem values_cons (name other : String) (v : Json) (rest : List (String × Json)) :
    values name ((other, v) :: rest) =
      if other = name then v :: values name rest else values name rest := by
  by_cases same : other = name <;> simp [values, same]

def AtMostOne (Readable : Json → Prop) (vs : List Json) : Prop :=
  vs.length ≤ 1 ∧ ∀ v ∈ vs, Readable v

/-- The members are those of an account: a field that is there is there once, and in its form. -/
structure IsAccount (members : List (String × Json)) : Prop where
  address : AtMostOne (fun v => ∃ s, v = .text s) (values "address" members)
  accountNumber : AtMostOne (fun v => ∃ n, v.Spells n) (values "account_number" members)
  sequence : AtMostOne (fun v => ∃ n, v.Spells n) (values "sequence" members)
  publicKey : AtMostOne (fun _ => True) (values "pub_key" members)

/-- The values of a member that is there once, or that is left out. -/
def OnceOrOut (spells : Json → Prop) (out : Prop) (vs : List Json) : Prop :=
  (∃ v, vs = [v] ∧ spells v) ∨ vs = [] ∧ out

/-- Null stands for no key. -/
inductive GivesKey : Option Json → Json → Prop
  | null : GivesKey none .null
  | value {v : Json} : v ≠ .null → GivesKey (some v.canonical) v

/-- The members tell an account: each field by the one value of its name, and what is left out is
empty, zero, or nothing. -/
structure Tells (members : List (String × Json)) (account : Account) : Prop where
  address : OnceOrOut (fun v => v = .text account.address) (account.address = "")
    (values "address" members)
  accountNumber : OnceOrOut (fun v => v.Spells account.accountNumber) (account.accountNumber = 0)
    (values "account_number" members)
  sequence : OnceOrOut (fun v => v.Spells account.sequence) (account.sequence = 0)
    (values "sequence" members)
  publicKey : OnceOrOut (GivesKey account.publicKey) (account.publicKey = none)
    (values "pub_key" members)

theorem atMostOne_iff {α : Type} {Is : α → Json → Prop} (out : α) {vs : List Json} :
    AtMostOne (fun v => ∃ a, Is a v) vs ↔ ∃ a, OnceOrOut (Is a) (a = out) vs := by
  constructor
  · rintro ⟨single, readable⟩
    cases vs with
    | nil => exact ⟨out, .inr ⟨rfl, rfl⟩⟩
    | cons v rest =>
      obtain rfl : rest = [] := List.length_eq_zero_iff.mp (by simpa using single)
      obtain ⟨a, is⟩ := readable v List.mem_cons_self
      exact ⟨a, .inl ⟨v, rfl, is⟩⟩
  · rintro ⟨a, ⟨v, rfl, is⟩ | ⟨rfl, _⟩⟩
    · simp only [AtMostOne, List.length_singleton, Nat.le_refl, List.mem_singleton, forall_eq,
        true_and]
      exact ⟨a, is⟩
    · simp [AtMostOne]

theorem present_eq {v : Json} {key : Option Json} : present v = key ↔ GivesKey key v := by
  constructor
  · rintro rfl
    unfold present
    split
    · exact .null
    · exact .value ‹_›
  · intro gives
    cases gives with
    | null => rfl
    | value some =>
      unfold present
      split
      · exact absurd rfl some
      · rfl

/-- Every value gives a key, so a key is never refused. -/
theorem givesKey (v : Json) : ∃ key, GivesKey key v := ⟨present v, present_eq.mp rfl⟩

/-- The members of an account are those that tell one. -/
theorem isAccount_iff {members : List (String × Json)} :
    IsAccount members ↔ ∃ account, Tells members account := by
  have key : (fun v => ∃ key, GivesKey key v) = fun _ => True :=
    funext fun v => eq_true (givesKey v)
  constructor
  · rintro ⟨address, accountNumber, sequence, publicKey⟩
    obtain ⟨a, address⟩ := (atMostOne_iff "").mp address
    obtain ⟨n, accountNumber⟩ := (atMostOne_iff 0).mp accountNumber
    obtain ⟨s, sequence⟩ := (atMostOne_iff 0).mp sequence
    rw [← key] at publicKey
    obtain ⟨k, publicKey⟩ := (atMostOne_iff none).mp publicKey
    exact ⟨⟨a, n, s, k⟩, address, accountNumber, sequence, publicKey⟩
  · rintro ⟨account, address, accountNumber, sequence, publicKey⟩
    have keyed := (atMostOne_iff none).mpr ⟨_, publicKey⟩
    rw [key] at keyed
    exact ⟨(atMostOne_iff "").mpr ⟨_, address⟩, (atMostOne_iff 0).mpr ⟨_, accountNumber⟩,
      (atMostOne_iff 0).mpr ⟨_, sequence⟩, keyed⟩

section Fill

variable {α : Type} (read : Json → Option α)

/-- What becomes of one field that is held when the values of its name come. -/
def fill (held : Option α) : List Json → Option (Option α)
  | [] => some held
  | v :: rest => if held.isSome then none else (read v).bind fun a => fill (some a) rest

theorem fill_cons {held filled : Option α} {v : Json} {rest : List Json} :
    fill read held (v :: rest) = some filled ↔
      held = none ∧ ∃ a, read v = some a ∧ fill read (some a) rest = some filled := by
  cases held with
  | none => simp [fill, Option.bind_eq_some_iff]
  | some old => simp [fill]

theorem fill_held {a : α} {vs : List Json} {filled : Option α} :
    fill read (some a) vs = some filled ↔ vs = [] ∧ filled = some a := by
  cases vs with
  | nil =>
    rw [fill, Option.some.injEq]
    exact ⟨fun same => ⟨rfl, same.symm⟩, fun ⟨_, same⟩ => same.symm⟩
  | cons v rest =>
    constructor
    · intro filled
      cases filled
    · rintro ⟨empty, _⟩
      cases empty

/-- A field that nothing is held of yet takes the one value of its name, or is left out. -/
theorem fill_once {Is : α → Json → Prop} (means : ∀ v a, read v = some a ↔ Is a v) (out a : α)
    (vs : List Json) :
    (∃ filled, fill read none vs = some filled ∧ filled.getD out = a) ↔
      OnceOrOut (Is a) (a = out) vs := by
  cases vs with
  | nil => simp [fill, OnceOrOut, eq_comm]
  | cons v rest =>
    simp only [fill_cons, fill_held, OnceOrOut, List.cons.injEq, reduceCtorEq, false_and, or_false]
    constructor
    · rintro ⟨_, ⟨_, b, taken, rfl, rfl⟩, rfl⟩
      exact ⟨v, ⟨rfl, rfl⟩, (means v b).mp taken⟩
    · rintro ⟨_, ⟨rfl, rfl⟩, is⟩
      exact ⟨some a, ⟨trivial, a, (means v a).mpr is, rfl, rfl⟩, rfl⟩

end Fill

theorem text?_eq_some {v : Json} {s : String} : text? v = some s ↔ v = .text s := by
  cases v <;> simp [text?]

theorem natural?_eq_some {v : Json} {n : Nat} : natural? v = some n ↔ v.Spells n := by
  rw [natural?, ← natural64_spells]
  cases natural64 v <;> simp [Except.toOption]

/-- Every field of `q` is the one of `p`, filled by the values of its name. -/
structure Filled (p : Partial) (members : List (String × Json)) (q : Partial) : Prop where
  address : fill text? p.address (values "address" members) = some q.address
  accountNumber :
    fill natural? p.accountNumber (values "account_number" members) = some q.accountNumber
  sequence : fill natural? p.sequence (values "sequence" members) = some q.sequence
  publicKey :
    fill (fun v => some (present v)) p.publicKey (values "pub_key" members) = some q.publicKey

theorem filled_nil (p q : Partial) : Filled p [] q ↔ p = q := by
  constructor
  · rintro ⟨address, accountNumber, sequence, publicKey⟩
    obtain ⟨a, n, s, k⟩ := p
    obtain ⟨b, m, t, l⟩ := q
    simp only [values, List.filter_nil, List.map_nil, fill, Option.some.injEq] at *
    simp [address, accountNumber, sequence, publicKey]
  · rintro rfl
    exact ⟨rfl, rfl, rfl, rfl⟩

theorem filled_iff (p q : Partial) (members : List (String × Json)) :
    Filled p members q ↔
      fill text? p.address (values "address" members) = some q.address ∧
      fill natural? p.accountNumber (values "account_number" members) = some q.accountNumber ∧
      fill natural? p.sequence (values "sequence" members) = some q.sequence ∧
      fill (fun v => some (present v)) p.publicKey (values "pub_key" members) = some q.publicKey :=
  ⟨fun ⟨a, n, s, k⟩ => ⟨a, n, s, k⟩, fun ⟨a, n, s, k⟩ => ⟨a, n, s, k⟩⟩

/-- Taking one member fills its field and leaves the others alone. -/
theorem filled_cons (p q : Partial) (name : String) (v : Json) (rest : List (String × Json)) :
    Filled p ((name, v) :: rest) q ↔
      ∃ next, takeMember? p name v = some next ∧ Filled next rest q := by
  simp only [filled_iff, values_cons]
  by_cases address : name = "address"
  · subst address
    cases held : p.address <;> cases readable : text? v <;>
      simp [takeMember?, fill_cons, held, readable]
  by_cases accountNumber : name = "account_number"
  · subst accountNumber
    cases held : p.accountNumber <;> cases readable : natural? v <;>
      simp [takeMember?, fill_cons, held, readable]
  by_cases sequence : name = "sequence"
  · subst sequence
    cases held : p.sequence <;> cases readable : natural? v <;>
      simp [takeMember?, fill_cons, held, readable]
  by_cases publicKey : name = "pub_key"
  · subst publicKey
    cases held : p.publicKey <;> simp [takeMember?, fill_cons, held]
  · simp [takeMember?, address, accountNumber, sequence, publicKey]

theorem takeMembers?_eq_some (members : List (String × Json)) (p q : Partial) :
    takeMembers? p members = some q ↔ Filled p members q := by
  induction members generalizing p with
  | nil => rw [filled_nil, takeMembers?, Option.some.injEq]
  | cons member rest ih =>
    obtain ⟨name, v⟩ := member
    rw [filled_cons, takeMembers?, Option.bind_eq_some_iff]
    exact exists_congr fun next => and_congr_right fun _ => ih next

/-- The members give the account that they tell, and none otherwise. -/
theorem ofMembers?_eq_some {members : List (String × Json)} {account : Account} :
    ofMembers? members = some account ↔ Tells members account := by
  have text := fill_once text? (fun _ _ => text?_eq_some) ""
  have number := fill_once natural? (fun _ _ => natural?_eq_some) 0
  have key := fill_once (fun v => some (present v))
    (fun _ _ => (Option.some_inj).trans present_eq) none
  rw [ofMembers?, Option.map_eq_some_iff]
  simp only [takeMembers?_eq_some]
  constructor
  · rintro ⟨q, filled, rfl⟩
    exact ⟨(text _ _).mp ⟨_, filled.address, rfl⟩, (number _ _).mp ⟨_, filled.accountNumber, rfl⟩,
      (number _ _).mp ⟨_, filled.sequence, rfl⟩, (key _ _).mp ⟨_, filled.publicKey, rfl⟩⟩
  · rintro ⟨address, accountNumber, sequence, publicKey⟩
    obtain ⟨a, address, ha⟩ := (text _ _).mpr address
    obtain ⟨n, accountNumber, hn⟩ := (number _ _).mpr accountNumber
    obtain ⟨s, sequence, hs⟩ := (number _ _).mpr sequence
    obtain ⟨k, publicKey, hk⟩ := (key _ _).mpr publicKey
    refine ⟨⟨a, n, s, k⟩, ⟨address, accountNumber, sequence, publicKey⟩, ?_⟩
    rw [Partial.account, ha, hn, hs, hk]

end NodeHarness.Account
