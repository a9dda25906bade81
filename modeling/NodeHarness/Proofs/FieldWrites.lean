import Mathlib.Data.List.Basic
import Mathlib.Data.List.Induction
import NodeHarness.Context

/-! What a set of fields holds, told from what was written to it. The names stand in the order in
which they were first written, and every name has the value last written under it. A set is known by
its names in order and the value of each, so sets that were written to in the same way are equal. -/
namespace NodeHarness

theorem lookup_member (name other : String) (value : Json) (rest : List (String × Json)) :
    ((other, value) :: rest).lookup name =
      if name = other then some value else rest.lookup name := by
  rw [List.lookup_cons]
  by_cases same : name = other
  · rw [if_pos same, beq_iff_eq.mpr same]
  · rw [if_neg same, beq_eq_false_iff_ne.mpr same]

theorem lookup_eq_none {name : String} {entries : List (String × Json)} :
    entries.lookup name = none ↔ name ∉ entries.map Prod.fst := by
  rw [List.lookup_eq_none_iff]
  simp only [bne_iff_ne, ne_eq, List.mem_map, not_exists, not_and]
  exact forall₂_congr fun _ _ => not_congr eq_comm

/-- Lists that begin with an only member of the same name agree on it, and behind it. -/
theorem lookup_cons_inj {name : String} {v w : Json} {as bs : List (String × Json)}
    (left : name ∉ as.map Prod.fst) (right : name ∉ bs.map Prod.fst)
    (values : ∀ key, ((name, v) :: as).lookup key = ((name, w) :: bs).lookup key) :
    v = w ∧ ∀ key, as.lookup key = bs.lookup key := by
  simp only [lookup_member] at values
  refine ⟨by simpa using values name, fun key => ?_⟩
  by_cases same : key = name
  · rw [same, lookup_eq_none.mpr left, lookup_eq_none.mpr right]
  · simpa only [if_neg same] using values key

/-- The value that was written last under a name. -/
def lastWritten? (name : String) (writes : List (String × Json)) : Option Json :=
  writes.reverse.lookup name

theorem lastWritten?_concat (name other : String) (value : Json) (writes : List (String × Json)) :
    lastWritten? name (writes ++ [(other, value)]) =
      if name = other then some value else lastWritten? name writes := by
  rw [lastWritten?, List.reverse_concat, lookup_member, lastWritten?]

theorem lastWritten?_append (name : String) (early late : List (String × Json)) :
    lastWritten? name (early ++ late) = (lastWritten? name late).or (lastWritten? name early) := by
  rw [lastWritten?, List.reverse_append, List.lookup_append]
  rfl

theorem lastWritten?_eq_none {name : String} {writes : List (String × Json)} :
    lastWritten? name writes = none ↔ name ∉ writes.map Prod.fst := by
  rw [lastWritten?, lookup_eq_none, List.map_reverse, List.mem_reverse]

/-- The names in the order in which each came first. -/
def firstNames (writes : List (String × Json)) : List String := (writes.map Prod.fst).eraseDups

theorem firstNames_concat (writes : List (String × Json)) (name : String) (value : Json) :
    firstNames (writes ++ [(name, value)]) =
      if name ∈ firstNames writes then firstNames writes else firstNames writes ++ [name] := by
  simp only [firstNames, List.map_append, List.map_cons, List.map_nil, List.eraseDups_append,
    List.mem_eraseDups]
  by_cases known : name ∈ writes.map Prod.fst
  · simp [List.removeAll, known]
  · simp [List.removeAll, known, List.eraseDups_cons]

theorem mem_firstNames {name : String} {writes : List (String × Json)} :
    name ∈ firstNames writes ↔ name ∈ writes.map Prod.fst := List.mem_eraseDups

/-- What is written later adds the names that are new, in the order in which they come first. -/
theorem firstNames_append (early late : List (String × Json)) :
    firstNames (early ++ late) =
      firstNames early ++ (firstNames late).filter fun name => name ∉ firstNames early := by
  induction late using List.reverseRecOn with
  | nil => simp [firstNames]
  | append_singleton late write ih =>
    obtain ⟨name, value⟩ := write
    rw [← List.append_assoc, firstNames_concat, firstNames_concat, ih]
    by_cases before : name ∈ firstNames early
    · by_cases again : name ∈ firstNames late <;> simp [before, again]
    · by_cases again : name ∈ firstNames late <;> simp [before, again]

namespace Fields

def names (fields : Fields) : List String := fields.entries.map Prod.fst

theorem ext_entries {a b : Fields} (same : a.entries = b.entries) : a = b := by
  cases a
  cases b
  cases same
  rfl

theorem lookup_put (name other : String) (value : Json) (entries : List (String × Json)) :
    (put other value entries).lookup name =
      if name = other then some value else entries.lookup name := by
  induction entries with
  | nil => rw [put, lookup_member]
  | cons entry rest ih =>
    obtain ⟨first, old⟩ := entry
    by_cases here : first = other
    · rw [put, if_pos here, lookup_member, lookup_member, here]
      split <;> rfl
    · rw [put, if_neg here, lookup_member, lookup_member, ih]
      by_cases same : name = other
      · rw [if_pos same, if_pos same, if_neg fun first => here (first.symm.trans same)]
      · rw [if_neg same, if_neg same]

theorem put_new {name : String} {entries : List (String × Json)}
    (new : name ∉ entries.map Prod.fst) (value : Json) :
    put name value entries = entries ++ [(name, value)] := by
  induction entries with
  | nil => rfl
  | cons entry rest ih =>
    obtain ⟨other, old⟩ := entry
    rw [List.map_cons, List.mem_cons, not_or] at new
    rw [put, if_neg fun same => new.1 same.symm, ih new.2]
    rfl

theorem get?_insert (fields : Fields) (name other : String) (value : Json) :
    (fields.insert other value).get? name = if name = other then some value else fields.get? name :=
  lookup_put name other value fields.entries

theorem insertAll_append (fields : Fields) (early late : List (String × Json)) :
    fields.insertAll (early ++ late) = (fields.insertAll early).insertAll late :=
  List.foldl_append

/-- The names are those written, in the order in which they were first written. -/
theorem names_ofList (writes : List (String × Json)) :
    (ofList writes).names = firstNames writes := by
  induction writes using List.reverseRecOn with
  | nil => rfl
  | append_singleton writes write ih =>
    obtain ⟨name, value⟩ := write
    rw [ofList, insertAll_append, firstNames_concat, ← ih]
    exact names_put name value (ofList writes).entries

/-- Every name has the value last written under it. -/
theorem get?_ofList (writes : List (String × Json)) (name : String) :
    (ofList writes).get? name = lastWritten? name writes := by
  induction writes using List.reverseRecOn with
  | nil => rfl
  | append_singleton writes write ih =>
    obtain ⟨other, value⟩ := write
    rw [ofList, insertAll_append, lastWritten?_concat, ← ih]
    exact get?_insert (ofList writes) name other value

theorem entries_ofList {writes : List (String × Json)} (distinct : (writes.map Prod.fst).Nodup) :
    (ofList writes).entries = writes := by
  induction writes using List.reverseRecOn with
  | nil => rfl
  | append_singleton writes write ih =>
    obtain ⟨name, value⟩ := write
    rw [List.map_append, List.nodup_append] at distinct
    obtain ⟨early, _, apart⟩ := distinct
    have new : name ∉ (ofList writes).entries.map Prod.fst := by
      rw [ih early]
      exact fun member => apart name member name (by simp) rfl
    rw [ofList, insertAll_append]
    refine (put_new new value).trans ?_
    rw [ih early]

/-- A set is what comes of writing its entries. -/
theorem ofList_entries (fields : Fields) : ofList fields.entries = fields :=
  ext_entries (entries_ofList fields.distinct)

theorem firstNames_entries (fields : Fields) : firstNames fields.entries = fields.names := by
  rw [← names_ofList, ofList_entries]

theorem lastWritten?_entries (fields : Fields) (name : String) :
    lastWritten? name fields.entries = fields.get? name := by
  rw [← get?_ofList, ofList_entries]

theorem insertAll_eq (fields : Fields) (writes : List (String × Json)) :
    fields.insertAll writes = ofList (fields.entries ++ writes) := by
  rw [ofList, insertAll_append]
  congr 1
  exact (ofList_entries fields).symm

/-- Lists of entries with the same names in order and the same values are the same. -/
theorem entries_ext {as bs : List (String × Json)} (distinct : (as.map Prod.fst).Nodup)
    (names : as.map Prod.fst = bs.map Prod.fst)
    (values : ∀ name, as.lookup name = bs.lookup name) : as = bs := by
  induction as generalizing bs with
  | nil => exact (List.map_eq_nil_iff.mp names.symm).symm
  | cons a as ih =>
    obtain ⟨name, value⟩ := a
    cases bs with
    | nil => cases names
    | cons b bs =>
      obtain ⟨other, next⟩ := b
      obtain ⟨rfl, later⟩ := List.cons.inj names
      obtain ⟨new, distinct⟩ := List.nodup_cons.mp distinct
      obtain ⟨rfl, rest⟩ := lookup_cons_inj new (later ▸ new) values
      rw [ih distinct later rest]

theorem get?_of_mem {fields : Fields} {name : String} {value : Json}
    (member : (name, value) ∈ fields.entries) : fields.get? name = some value := by
  obtain ⟨early, late, split⟩ := List.append_of_mem member
  have distinct := fields.distinct
  rw [split, List.map_append, List.map_cons, List.nodup_append] at distinct
  rw [get?, split, List.lookup_append, lookup_member, if_pos rfl,
    lookup_eq_none.mpr fun before => distinct.2.2 name before name List.mem_cons_self rfl]
  rfl

/-- A set is told by its names and their values. -/
theorem entries_listed (fields : Fields) :
    fields.entries =
      fields.names.filterMap fun name => (fields.get? name).map fun v => (name, v) := by
  rw [names, List.filterMap_map]
  refine List.filterMap_some.symm.trans (List.filterMap_congr fun entry member => ?_)
  rw [Function.comp_apply, get?_of_mem member, Option.map_some]

/-- Sets with the same names in order and the same values are the same. -/
theorem ext_names {a b : Fields} (same : a.names = b.names)
    (values : ∀ name, a.get? name = b.get? name) : a = b :=
  ext_entries (entries_ext a.distinct same values)

theorem names_merge (a b : Fields) :
    (a.merge b).names = a.names ++ b.names.filter fun name => name ∉ a.names := by
  rw [merge, insertAll_eq, names_ofList, firstNames_append, firstNames_entries, firstNames_entries]

theorem get?_merge (a b : Fields) (name : String) :
    (a.merge b).get? name = (b.get? name).or (a.get? name) := by
  rw [merge, insertAll_eq, get?_ofList, lastWritten?_append, lastWritten?_entries,
    lastWritten?_entries]

/-- To merge what was written is to write on. -/
theorem merge_ofList (early late : List (String × Json)) :
    (ofList early).merge (ofList late) = ofList (early ++ late) := by
  refine ext_names ?_ fun name => ?_
  · rw [names_merge, names_ofList, names_ofList, names_ofList, firstNames_append]
  · rw [get?_merge, get?_ofList, get?_ofList, get?_ofList, lastWritten?_append]

end Fields
end NodeHarness
