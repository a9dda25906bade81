import Mathlib.Data.String.Basic
import NodeHarness.Proofs.FieldWrites

/-! Members in ascending order of their names. There is one such list for every map from names to
values, whatever order the members came in. So the canonical forms of two values are the same
exactly if the values have the same shape at the end of every path, where of members with the same
name the last one counts. -/
namespace NodeHarness.Json

/-- Every name is below those behind it. -/
def Ascending (members : List (String × Json)) : Prop := members.Pairwise fun a b => a.1 < b.1

theorem Ascending.distinct {members : List (String × Json)} (ascending : Ascending members) :
    (members.map Prod.fst).Nodup := by
  rw [List.nodup_iff_pairwise_ne, List.pairwise_map]
  refine ascending.imp fun {a b} below same => ?_
  rw [same] at below
  exact lt_irrefl _ below

theorem mem_insertMember {name : String} {value : Json} {members : List (String × Json)}
    {member : String × Json} (found : member ∈ insertMember name value members) :
    member = (name, value) ∨ member ∈ members := by
  induction members with
  | nil => exact .inl (List.mem_singleton.mp found)
  | cons first rest ih =>
    obtain ⟨other, old⟩ := first
    rw [insertMember] at found
    split at found
    · rcases List.mem_cons.mp found with here | later
      · exact .inl here
      · exact .inr (List.mem_cons_of_mem _ later)
    split at found
    · exact List.mem_cons.mp found
    · rcases List.mem_cons.mp found with rfl | later
      · exact .inr List.mem_cons_self
      · exact (ih later).imp_right (List.mem_cons_of_mem _)

theorem insertMember_ascending {members : List (String × Json)} (ascending : Ascending members)
    (name : String) (value : Json) : Ascending (insertMember name value members) := by
  induction members with
  | nil => exact List.pairwise_singleton _ _
  | cons first rest ih =>
    obtain ⟨other, old⟩ := first
    obtain ⟨below, later⟩ := List.pairwise_cons.mp ascending
    rw [insertMember]
    split
    · rename_i same
      subst same
      exact List.pairwise_cons.mpr ⟨below, later⟩
    split
    · rename_i before
      refine List.pairwise_cons.mpr ⟨?_, ascending⟩
      intro member found
      rcases List.mem_cons.mp found with rfl | found
      · exact before
      · exact lt_trans before (below member found)
    · rename_i different notBefore
      have behind : other < name := by
        by_contra notBehind
        exact different (le_antisymm (not_lt.mp notBehind) (not_lt.mp notBefore))
      refine List.pairwise_cons.mpr ⟨?_, ih later⟩
      intro member found
      rcases mem_insertMember found with rfl | found
      · exact behind
      · exact below member found

theorem lookup_insertMember (name other : String) (value : Json) (members : List (String × Json)) :
    (insertMember other value members).lookup name =
      if name = other then some value else members.lookup name := by
  induction members with
  | nil => rw [insertMember, lookup_member]
  | cons first rest ih =>
    obtain ⟨next, old⟩ := first
    rw [insertMember]
    split
    · rename_i same
      rw [lookup_member, lookup_member, same]
      split <;> rfl
    split
    · rw [lookup_member]
    · rename_i different _
      rw [lookup_member, lookup_member, ih]
      by_cases same : name = other
      · rw [if_pos same, if_pos same, if_neg fun next => different (same.symm.trans next)]
      · rw [if_neg same, if_neg same]

theorem sortMembers_concat (members : List (String × Json)) (name : String) (value : Json) :
    sortMembers (members ++ [(name, value)]) = insertMember name value (sortMembers members) := by
  rw [sortMembers, List.foldl_append]
  rfl

theorem sortMembers_ascending (members : List (String × Json)) :
    Ascending (sortMembers members) := by
  induction members using List.reverseRecOn with
  | nil => exact .nil
  | append_singleton members member ih =>
    rw [sortMembers_concat]
    exact insertMember_ascending ih _ _

theorem lookup_sortMembers (members : List (String × Json)) (name : String) :
    (sortMembers members).lookup name = lastWritten? name members := by
  induction members using List.reverseRecOn with
  | nil => rfl
  | append_singleton members member ih =>
    rw [sortMembers_concat, lookup_insertMember, lastWritten?_concat, ih]

/-- Sorting adds no member. -/
theorem mem_of_mem_sortMembers {member : String × Json} {members : List (String × Json)}
    (sorted : member ∈ sortMembers members) : member ∈ members := by
  induction members using List.reverseRecOn with
  | nil => exact sorted
  | append_singleton members last ih =>
    rw [sortMembers_concat] at sorted
    rcases mem_insertMember sorted with rfl | earlier
    · exact List.mem_append_right _ List.mem_cons_self
    · exact List.mem_append_left _ (ih earlier)

theorem Ascending.below {name : String} {value : Json} {rest : List (String × Json)}
    (ascending : Ascending ((name, value) :: rest)) {key : String}
    (found : ((name, value) :: rest).lookup key ≠ none) : name ≤ key := by
  rw [ne_eq, lookup_eq_none, not_not] at found
  obtain ⟨member, there, rfl⟩ := List.mem_map.mp found
  rcases List.mem_cons.mp there with rfl | later
  · exact le_refl _
  · exact le_of_lt ((List.pairwise_cons.mp ascending).1 member later)

/-- In ascending order there is one list for every map. -/
theorem Ascending.ext {as bs : List (String × Json)} (left : Ascending as) (right : Ascending bs)
    (values : ∀ name, as.lookup name = bs.lookup name) : as = bs := by
  have first (name : String) (value : Json) (rest : List (String × Json)) :
      ((name, value) :: rest).lookup name ≠ none := by
    simp
  induction as generalizing bs with
  | nil =>
    cases bs with
    | nil => rfl
    | cons b bs => exact absurd (values b.1).symm (first b.1 b.2 bs)
  | cons a as ih =>
    obtain ⟨name, value⟩ := a
    cases bs with
    | nil => exact absurd (values name) (first name value as)
    | cons b bs =>
      obtain ⟨other, next⟩ := b
      -- neither of the two lists can begin with the lower name
      have above : name ≤ other := left.below (by rw [values]; exact first other next bs)
      have below : other ≤ name := right.below (by rw [← values]; exact first name value as)
      obtain rfl := le_antisymm above below
      have newLeft := (List.nodup_cons.mp left.distinct).1
      have newRight := (List.nodup_cons.mp right.distinct).1
      obtain ⟨rfl, rest⟩ := lookup_cons_inj newLeft newRight values
      rw [ih (List.pairwise_cons.mp left).2 (List.pairwise_cons.mp right).2 rest]

theorem sortMembers_eq_iff {as bs : List (String × Json)} :
    sortMembers as = sortMembers bs ↔ ∀ name, lastWritten? name as = lastWritten? name bs := by
  simp only [← lookup_sortMembers]
  constructor
  · intro same name
    rw [same]
  · exact (sortMembers_ascending as).ext (sortMembers_ascending bs)

/-! Values by their parts. -/

/-- A step into a value. -/
inductive Place
  | member (name : String)
  | item (index : Nat)

/-- What a value is, apart from its parts. -/
inductive Shape
  | null
  | bool (b : Bool)
  | number (n : JsonNumber)
  | text (s : String)
  | list (length : Nat)
  | object
  deriving DecidableEq

def shape : Json → Shape
  | .null => .null
  | .bool b => .bool b
  | .number n => .number n
  | .text s => .text s
  | .list items => .list items.length
  | .object _ => .object

/-- The part at the end of a path. Of members with the same name the last one counts. -/
def part? : List Place → Json → Option Json
  | [], v => some v
  | .member name :: path, .object members => (lastWritten? name members).bind (part? path)
  | .item index :: path, .list items => items[index]?.bind (part? path)
  | _ :: _, _ => none

/-- At the end of every path the values have the same shape. -/
def Agree (v w : Json) : Prop :=
  ∀ path, (part? path v).map shape = (part? path w).map shape

theorem canonicalItems_eq (items : List Json) : canonicalItems items = items.map canonical := by
  induction items with
  | nil => rfl
  | cons item rest ih => rw [canonicalItems, List.map_cons, ih]

theorem canonicalMembers_eq (members : List (String × Json)) :
    canonicalMembers members = members.map fun member => (member.1, member.2.canonical) := by
  induction members with
  | nil => rfl
  | cons member rest ih => rw [canonicalMembers, List.map_cons, ih]

theorem lastWritten?_canonicalMembers (name : String) (members : List (String × Json)) :
    lastWritten? name (canonicalMembers members) = (lastWritten? name members).map canonical := by
  induction members using List.reverseRecOn with
  | nil => rfl
  | append_singleton members member ih =>
    obtain ⟨other, v⟩ := member
    rw [canonicalMembers_eq, List.map_append, ← canonicalMembers_eq, List.map_singleton,
      lastWritten?_concat, lastWritten?_concat, ih]
    split <;> rfl

theorem lastWritten?_sortMembers (name : String) (members : List (String × Json)) :
    lastWritten? name (sortMembers members) = lastWritten? name members := by
  rw [← lookup_sortMembers members]
  exact Fields.lastWritten?_entries ⟨_, (sortMembers_ascending members).distinct⟩ name

theorem shape_canonical (v : Json) : v.canonical.shape = v.shape := by
  cases v with
  | list items => rw [canonical, shape, shape, canonicalItems_eq, List.length_map]
  | _ => rfl

/-- The parts of a canonical form are the canonical forms of the parts. -/
theorem part?_canonical (path : List Place) (v : Json) :
    part? path v.canonical = (part? path v).map canonical := by
  induction path generalizing v with
  | nil => rfl
  | cons place path ih =>
    have inner (found : Option Json) :
        (found.map canonical).bind (part? path) = (found.bind (part? path)).map canonical := by
      cases found with
      | none => rfl
      | some v => exact ih v
    cases v with
    | object members =>
      cases place with
      | member name =>
        rw [canonical, part?, part?, lastWritten?_sortMembers, lastWritten?_canonicalMembers, inner]
      | item index => rfl
    | list items =>
      cases place with
      | member name => rfl
      | item index =>
        rw [canonical, part?, part?, canonicalItems_eq, List.getElem?_map, inner]
    | _ => cases place <;> rfl

theorem agree_canonical (v : Json) : Agree v v.canonical := by
  intro path
  rw [part?_canonical, Option.map_map]
  congr 1
  funext v
  exact (shape_canonical v).symm

theorem Agree.of_canonical {v w : Json} (same : v.canonical = w.canonical) : Agree v w := by
  intro path
  rw [agree_canonical v path, agree_canonical w path, same]

theorem mem_of_lastWritten? {name : String} {members : List (String × Json)} {v : Json}
    (found : lastWritten? name members = some v) : (name, v) ∈ members := by
  obtain ⟨before, behind, split, _⟩ := List.lookup_eq_some_iff.mp found
  rw [← List.mem_reverse, split]
  exact List.mem_append_right _ List.mem_cons_self

section Parts

variable {v w : Json}

theorem Agree.shape (agree : Agree v w) : v.shape = w.shape := Option.some.inj (agree [])

theorem Agree.item {xs ys : List Json} (agree : Agree (.list xs) (.list ys)) {index : Nat}
    (left : xs[index]? = some v) (right : ys[index]? = some w) : Agree v w := by
  intro path
  have here := agree (.item index :: path)
  rw [part?, part?, left, right] at here
  exact here

theorem Agree.member {ms ns : List (String × Json)} (agree : Agree (.object ms) (.object ns))
    {name : String} (left : lastWritten? name ms = some v) :
    ∃ w, lastWritten? name ns = some w ∧ Agree v w := by
  have here (path : List Place) := agree (.member name :: path)
  simp only [part?, left] at here
  cases right : lastWritten? name ns with
  | none =>
    rw [right] at here
    cases here []
  | some w =>
    rw [right] at here
    exact ⟨w, rfl, here⟩

theorem Agree.symm (agree : Agree v w) : Agree w v := fun path => (agree path).symm

end Parts

mutual

/-- Values that agree have the same canonical form. -/
theorem Agree.canonical_eq : ∀ {v w : Json}, Agree v w → v.canonical = w.canonical
  | .null, w, agree => by
    cases w <;> cases agree.shape
    rfl
  | .bool b, w, agree => by
    cases w <;> cases agree.shape
    rfl
  | .number n, w, agree => by
    cases w <;> cases agree.shape
    rfl
  | .text s, w, agree => by
    cases w <;> cases agree.shape
    rfl
  | .list xs, w, agree => by
    cases w with
    | list ys =>
      have lengths : xs.length = ys.length := Shape.list.inj agree.shape
      have items := items_canonical_eq lengths fun _ _ _ left right => agree.item left right
      rw [canonical, canonical, items]
    | _ => cases agree.shape
  | .object ms, w, agree => by
    cases w with
    | object ns =>
      rw [canonical, canonical, Json.object.injEq, sortMembers_eq_iff]
      intro name
      rw [lastWritten?_canonicalMembers, lastWritten?_canonicalMembers]
      cases left : lastWritten? name ms with
      | none =>
        cases right : lastWritten? name ns with
        | none => rfl
        | some w =>
          obtain ⟨v, found, _⟩ := agree.symm.member right
          cases left.symm.trans found
      | some v =>
        obtain ⟨w, right, same⟩ := agree.member left
        rw [right, Option.map_some, Option.map_some,
          member_canonical_eq ms _ (mem_of_lastWritten? left) same]
    | _ => cases agree.shape

theorem items_canonical_eq : ∀ {xs ys : List Json}, xs.length = ys.length →
    (∀ (index : Nat) v w, xs[index]? = some v → ys[index]? = some w → Agree v w) →
    canonicalItems xs = canonicalItems ys
  | [], [], _, _ => rfl
  | x :: xs, y :: ys, lengths, each => by
    have first : Agree x y := each 0 x y rfl rfl
    have later := items_canonical_eq (Nat.succ.inj lengths) fun index v w left right =>
      each (index + 1) v w left right
    rw [canonicalItems, canonicalItems, first.canonical_eq, later]

theorem member_canonical_eq : ∀ (ms : List (String × Json)) (member : String × Json),
    member ∈ ms → ∀ {w : Json}, Agree member.2 w → member.2.canonical = w.canonical
  | (_, v) :: ms, member, there, w, agree => by
    rcases List.mem_cons.mp there with rfl | later
    · exact agree.canonical_eq
    · exact member_canonical_eq ms member later agree

end

theorem canonical_eq_iff {v w : Json} : v.canonical = w.canonical ↔ Agree v w :=
  ⟨.of_canonical, Agree.canonical_eq⟩

theorem canonical_canonical (v : Json) : v.canonical.canonical = v.canonical :=
  (agree_canonical v).canonical_eq.symm

theorem sortMembers_sortMembers (members : List (String × Json)) :
    sortMembers (sortMembers members) = sortMembers members := by
  rw [sortMembers_eq_iff]
  exact fun name => lastWritten?_sortMembers name members

/-- An object in order, of canonical values, is canonical. -/
theorem canonical_object {members : List (String × Json)}
    (each : ∀ member ∈ members, member.2.canonical = member.2) :
    (Json.object (sortMembers members)).canonical = .object (sortMembers members) := by
  have same : canonicalMembers (sortMembers members) = sortMembers members := by
    rw [canonicalMembers_eq]
    refine (List.map_congr_left fun member sorted => ?_).trans (List.map_id _)
    rw [each member (mem_of_mem_sortMembers sorted), id]
  rw [canonical, same, sortMembers_sortMembers]

end NodeHarness.Json
