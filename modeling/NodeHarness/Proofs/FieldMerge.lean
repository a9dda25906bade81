import NodeHarness.Proofs.FieldWrites

/-! Merging sets of fields. To merge is to write on, so sets with merging are what lists are with
appending, only that a set merged with itself is itself. Hence the fields of a context do not depend
on how the additions that led to it are grouped. -/
namespace NodeHarness

namespace Fields

theorem merge_eq (a b : Fields) : a.merge b = ofList (a.entries ++ b.entries) := insertAll_eq a _

theorem merge_assoc (a b c : Fields) : (a.merge b).merge c = a.merge (b.merge c) := by
  calc (a.merge b).merge c
      = (ofList (a.entries ++ b.entries)).merge (ofList c.entries) := by
        rw [merge_eq a b, ofList_entries]
    _ = ofList (a.entries ++ (b.entries ++ c.entries)) := by
        rw [merge_ofList, List.append_assoc]
    _ = (ofList a.entries).merge (ofList (b.entries ++ c.entries)) := (merge_ofList _ _).symm
    _ = a.merge (b.merge c) := by
        rw [ofList_entries, ← merge_eq b c]

theorem empty_merge (a : Fields) : empty.merge a = a := ofList_entries a

theorem merge_empty (a : Fields) : a.merge empty = a := rfl

theorem merge_self (a : Fields) : a.merge a = a := by
  refine ext_names ?_ fun name => ?_
  · have none : a.names.filter (fun name => name ∉ a.names) = [] := by
      rw [List.filter_eq_nil_iff]
      intro name member
      simpa using member
    rw [names_merge, none, List.append_nil]
  · rw [get?_merge, Option.or_self]

/-- Entries of names that are not there yet come behind those that are. -/
theorem entries_merge_apart {a b : Fields} (apart : ∀ name ∈ a.names, name ∉ b.names) :
    (a.merge b).entries = a.entries ++ b.entries := by
  have distinct : ((a.entries ++ b.entries).map Prod.fst).Nodup := by
    rw [List.map_append, List.nodup_append]
    refine ⟨a.distinct, b.distinct, ?_⟩
    rintro name first _ second rfl
    exact apart name first second
  rw [merge_eq, entries_ofList distinct]

theorem render_merge_apart {a b : Fields} (apart : ∀ name ∈ a.names, name ∉ b.names) :
    (a.merge b).render = a.render ++ b.render := by
  rw [render, entries_merge_apart apart, List.flatMap_append, String.ofList_append]
  rfl

/-- Sets that are merged one after the other, with some of them merged before. -/
inductive Grouping
  | one (fields : Fields)
  | pair (first second : Grouping)

namespace Grouping

def merged : Grouping → Fields
  | one fields => fields
  | pair first second => first.merged.merge second.merged

def parts : Grouping → List Fields
  | one fields => [fields]
  | pair first second => first.parts ++ second.parts

end Grouping

end Fields

open Fields (Grouping)

theorem Context.withFields_withFields (c : Context) (a b : Fields) :
    (c.withFields a).withFields b = c.withFields (a.merge b) := by
  rw [withFields, withFields, withFields, Fields.merge_assoc]

/-- A group is added as its parts are, one by one. -/
theorem Context.withFields_merged (c : Context) (group : Grouping) :
    c.withFields group.merged = group.parts.foldl withFields c := by
  induction group generalizing c with
  | one fields => rfl
  | pair first second ihFirst ihSecond =>
    rw [Grouping.merged, Grouping.parts, List.foldl_append, ← ihFirst, ← ihSecond,
      withFields_withFields]

theorem Context.foldl_merged (c : Context) (groups : List Grouping) :
    groups.foldl (fun c group => c.withFields group.merged) c =
      (groups.flatMap Grouping.parts).foldl withFields c := by
  induction groups generalizing c with
  | nil => rfl
  | cons group rest ih =>
    rw [List.foldl_cons, List.flatMap_cons, List.foldl_append, ih, withFields_merged]

/-- Sets of fields, with their entries in order, under merging. -/
structure MergesAsWriting : Prop where
  assoc : ∀ a b c : Fields, (a.merge b).merge c = a.merge (b.merge c)
  left : ∀ a : Fields, Fields.empty.merge a = a
  right : ∀ a : Fields, a.merge .empty = a
  self : ∀ a : Fields, a.merge a = a
  collected : ∀ early late : List (String × Json),
    Fields.ofList (early ++ late) = (Fields.ofList early).merge (Fields.ofList late)
  /-- In two steps or in one, the context is the same, and so is its line. -/
  derived : ∀ (c : Context) (a b : Fields),
    (c.withFields a).withFields b = c.withFields (a.merge b) ∧
      ((c.withFields a).withFields b).render = (c.withFields (a.merge b)).render
  /-- Chains of additions with the same parts in order lead to the same context. -/
  grouped : ∀ (c : Context) (groups others : List Grouping),
    groups.flatMap Grouping.parts = others.flatMap Grouping.parts →
    groups.foldl (fun c group => c.withFields group.merged) c =
      others.foldl (fun c group => c.withFields group.merged) c
  rendered : ∀ a b : Fields, (∀ name ∈ a.names, name ∉ b.names) →
    (a.merge b).render = a.render ++ b.render

theorem fields_merge : MergesAsWriting where
  assoc := Fields.merge_assoc
  left := Fields.empty_merge
  right := Fields.merge_empty
  self := Fields.merge_self
  collected early late := (Fields.merge_ofList early late).symm
  derived c a b := by
    rw [Context.withFields_withFields]
    exact ⟨rfl, rfl⟩
  grouped c groups others same := by
    rw [Context.foldl_merged, Context.foldl_merged, same]
  rendered _ _ := Fields.render_merge_apart

end NodeHarness
