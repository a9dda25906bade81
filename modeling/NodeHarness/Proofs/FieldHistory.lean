import Mathlib.Data.Finset.Card
import NodeHarness.Proofs.FieldWrites

/-! Sets of fields with their histories. Whatever way a set was built, from sets with histories of
their own or not, it is the map that its writes tell: names in the order in which they were first
written, each with the value that was last written under it. -/
namespace NodeHarness.Fields

/-- How a set came about: by writing data or a displayed text under a name, by taking over what
another set holds, or from a list of members. -/
inductive History
  | empty
  | insert (before : History) (name : String) (data : Payload)
  | display (before : History) (name text : String)
  | merge (before other : History)
  | collect (members : List (String × Json))

namespace History

def build : History → Fields
  | .empty => .empty
  | .insert before name data => before.build.insertPayload name data
  | .display before name text => before.build.insert name (.text text)
  | .merge before other => before.build.merge other.build
  | .collect members => ofList (Json.canonicalMembers members)

/-- All that was written, in the order of time; what another set was built from comes when it is
merged. -/
def writes : History → List (String × Json)
  | .empty => []
  | .insert before name data => before.writes ++ [(name, data.stored)]
  | .display before name text => before.writes ++ [(name, .text text)]
  | .merge before other => before.writes ++ other.writes
  | .collect members => Json.canonicalMembers members

theorem build_eq (h : History) : h.build = ofList h.writes := by
  induction h with
  | empty => rfl
  | insert before name data ih =>
    rw [build, writes, ih, ofList, ofList, insertAll_append]
    rfl
  | display before name text ih =>
    rw [build, writes, ih, ofList, ofList, insertAll_append]
    rfl
  | merge before other ihBefore ihOther =>
    rw [build, writes, ihBefore, ihOther, merge_ofList]
  | collect members => rfl

/-- The names in the order of their first writes, each with the value of its last. -/
def listed (h : History) : List (String × Json) :=
  (firstNames h.writes).filterMap fun name => (lastWritten? name h.writes).map fun v => (name, v)

/-- A history that another one goes on from, or takes over. -/
inductive Part (part : History) : History → Prop
  | self : Part part part
  | insert {before : History} (name : String) (data : Payload) : Part part before →
    Part part (before.insert name data)
  | display {before : History} (name text : String) : Part part before →
    Part part (before.display name text)
  | receiver {before : History} (other : History) : Part part before →
    Part part (before.merge other)
  | merged {other : History} (before : History) : Part part other → Part part (before.merge other)

theorem Part.writes_subset {part h : History} (within : Part part h) :
    ∀ write ∈ part.writes, write ∈ h.writes := by
  induction within with
  | self => exact fun _ member => member
  | insert name data _ ih => exact fun write member => List.mem_append_left _ (ih write member)
  | display name text _ ih => exact fun write member => List.mem_append_left _ (ih write member)
  | receiver other _ ih => exact fun write member => List.mem_append_left _ (ih write member)
  | merged before _ ih => exact fun write member => List.mem_append_right _ (ih write member)

theorem get?_build (h : History) (name : String) :
    h.build.get? name = lastWritten? name h.writes := by
  rw [build_eq, get?_ofList]

theorem names_build (h : History) : h.build.names = firstNames h.writes := by
  rw [build_eq, names_ofList]

theorem mem_names {h : History} {name : String} :
    name ∈ h.build.names ↔ name ∈ h.writes.map Prod.fst := by
  rw [names_build, mem_firstNames]

theorem entries_build (h : History) : h.build.entries = h.listed := by
  have listed : h.listed =
      h.build.names.filterMap fun name => (h.build.get? name).map fun v => (name, v) := by
    simp only [History.listed, names_build, get?_build]
  rw [listed, ← entries_listed]

/-- There are as many entries as different names among the writes. -/
theorem size_build (h : History) : h.build.size = (h.writes.map Prod.fst).toFinset.card := by
  have same : (h.writes.map Prod.fst).toFinset = h.build.names.toFinset := by
    ext name
    rw [List.mem_toFinset, List.mem_toFinset, mem_names]
  rw [same, names, List.toFinset_card_of_nodup h.build.distinct, List.length_map]
  rfl

theorem get?_inserted (before : History) (name : String) (data : Payload) :
    (History.insert before name data).build.get? name = some data.stored := by
  rw [build, insertPayload, get?_insert, if_pos rfl]

/-- What a set holds, told from its history. -/
structure Told (h : History) : Prop where
  distinct : h.build.names.Nodup
  order : h.build.names = firstNames h.writes
  merged : ∀ before other, h = .merge before other → h.build.names =
    before.build.names ++ other.build.names.filter fun name => name ∉ before.build.names
  iterated : h.build.entries = h.listed
  rendered : h.build.render = String.ofList
    (h.listed.flatMap fun entry => ' ' :: (entry.1.toList ++ '=' :: renderValue entry.2))
  value : ∀ name, h.build.get? name = lastWritten? name h.writes
  absent : ∀ name, h.build.get? name = none ↔ name ∉ h.writes.map Prod.fst
  size : h.build.size = (h.writes.map Prod.fst).toFinset.card
  stored : ∀ before name data v, h = .insert before name data → data.toJson = .ok v →
    h.build.get? name = some v
  /-- Data without a JSON form keeps its name all the same. -/
  unserializable : ∀ before name data fault, h = .insert before name data →
    data.toJson = .error fault →
    h.build.get? name = some (.text ("<unserializable: " ++ fault.message ++ ">"))
  kept : ∀ part, Part part h → ∀ name ∈ part.build.names, name ∈ h.build.names

/-- Every set holds what its history tells. -/
theorem history_told (h : History) : Told h where
  distinct := h.build.distinct
  order := names_build h
  merged before other merged := by
    rw [merged, build, names_merge]
  iterated := entries_build h
  rendered := by
    rw [render, entries_build]
    rfl
  value := get?_build h
  absent name := by
    rw [get?_build, lastWritten?_eq_none]
  size := size_build h
  stored before name data v inserted serialized := by
    rw [inserted, get?_inserted, Payload.stored, serialized]
  unserializable before name data fault inserted refused := by
    rw [inserted, get?_inserted, Payload.stored, refused]
  kept part within name member := by
    rw [mem_names] at member ⊢
    obtain ⟨write, written, same⟩ := List.mem_map.mp member
    exact List.mem_map.mpr ⟨write, within.writes_subset write written, same⟩

end History
end NodeHarness.Fields
