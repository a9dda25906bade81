import NodeHarness.Json.Printer

/-! The fields of a log record: names with JSON values, each name once, in the order in which
the names were first written. Writing a name again replaces its value in place. -/
namespace NodeHarness

structure Fields where
  entries : List (String × Json)
  distinct : (entries.map Prod.fst).Nodup

namespace Fields

/-- Replaces the value of `name`, or appends it when it is new. -/
def put (name : String) (value : Json) : List (String × Json) → List (String × Json)
  | [] => [(name, value)]
  | (other, old) :: rest =>
    if other = name then (other, value) :: rest
    else (other, old) :: put name value rest

theorem names_put (name : String) (value : Json) (entries : List (String × Json)) :
    (put name value entries).map Prod.fst =
      if name ∈ entries.map Prod.fst then entries.map Prod.fst
      else entries.map Prod.fst ++ [name] := by
  induction entries with
  | nil => simp [put]
  | cons entry rest ih =>
    obtain ⟨other, old⟩ := entry
    by_cases same : other = name
    · simp [put, same]
    · have differ : ¬ name = other := fun h => same h.symm
      by_cases later : name ∈ rest.map Prod.fst
      · simp only [put, if_neg same, List.map_cons, ih, if_pos later, List.mem_cons, differ,
          false_or]
      · simp only [put, if_neg same, List.map_cons, ih, if_neg later, List.mem_cons, differ,
          false_or, List.cons_append]

theorem nodup_put (name : String) (value : Json) {entries : List (String × Json)}
    (distinct : (entries.map Prod.fst).Nodup) :
    ((put name value entries).map Prod.fst).Nodup := by
  rw [names_put]
  split
  · exact distinct
  · rename_i new
    rw [List.nodup_append]
    refine ⟨distinct, by simp, ?_⟩
    intro a ha b hb same
    simp only [List.mem_singleton] at hb
    exact new (hb ▸ same ▸ ha)

def empty : Fields := ⟨[], by simp⟩

def insert (fields : Fields) (name : String) (value : Json) : Fields :=
  ⟨put name value fields.entries, nodup_put name value fields.distinct⟩

def insertAll (fields : Fields) (entries : List (String × Json)) : Fields :=
  entries.foldl (fun fields (name, value) => fields.insert name value) fields

def ofList (entries : List (String × Json)) : Fields := empty.insertAll entries

def merge (fields other : Fields) : Fields := fields.insertAll other.entries

def get? (fields : Fields) (name : String) : Option Json := fields.entries.lookup name

def size (fields : Fields) : Nat := fields.entries.length

def isEmpty (fields : Fields) : Bool := fields.entries.isEmpty

/-- The fields as an object, its names in ascending order. -/
def toJson (fields : Fields) : Json := .object (Json.sortMembers fields.entries)

def renderValue : Json → List Char
  | .text s => s.toList
  | value => value.print

def renderEntry (entry : String × Json) : List Char :=
  ' ' :: (entry.1.toList ++ '=' :: renderValue entry.2)

/-- A space, the name, an equals sign and the value for each entry; texts are written bare. -/
def render (fields : Fields) : String := String.ofList (fields.entries.flatMap renderEntry)

def same (a b : Fields) : Bool := Json.sameMembers a.entries b.entries

def describe (fields : Fields) : String :=
  "Fields \x7b entries: ["
    ++ Json.joined (fields.entries.map fun (name, value) =>
      "(" ++ Text.Quoted.quote name ++ ", " ++ value.describe ++ ")")
    ++ "] \x7d"

end Fields
end NodeHarness
