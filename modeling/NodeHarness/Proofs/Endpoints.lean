import NodeHarness.Command
import NodeHarness.Options
import NodeHarness.Proofs.Padding

/-! Lists of endpoints. A list is cut at its commas and every entry is trimmed, so that commas and
white space may stand anywhere around the endpoints: what is read of two lists with a comma between
them is what is read of the one and then of the other. -/
namespace NodeHarness.Options

/-- An endpoint as a list can hold it. -/
structure IsEndpoint (node : String) : Prop where
  filled : node ≠ ""
  whole : ',' ∉ node.toList
  begins : ∀ c ∈ node.toList.head?, Text.isBlank c = false
  ends : ∀ c ∈ node.toList.getLast?, Text.isBlank c = false

def IsBlank (s : String) : Prop := ∀ c ∈ s.toList, Text.isBlank c = true

/-- The entries of a list with its endpoints: some are blank, the others hold an endpoint each,
with any padding around it. -/
inductive Holds : List String → List String → Prop
  | nil : Holds [] []
  | blank {entry : String} {entries nodes : List String} : IsBlank entry → Holds entries nodes →
      Holds (entry :: entries) nodes
  | padded {front node back : String} {entries nodes : List String} : IsBlank front →
      IsEndpoint node → IsBlank back → Holds entries nodes →
      Holds ((front ++ node ++ back) :: entries) (node :: nodes)

section Lists

variable {cs entry : List Char}

theorem mem_trim {c : Char} (member : c ∈ Text.trim cs) : c ∈ cs := by
  obtain ⟨front, back, cut, _⟩ := (Text.padded_stripBoth Text.isBlank cs).around
  rw [cut]
  exact List.mem_append_left _ (List.mem_append_right _ member)

theorem endpoints_append (as bs : List Char) :
    endpoints (as ++ ',' :: bs) = endpoints as ++ endpoints bs := by
  rw [endpoints, Text.pieces_append, List.map_append, List.filter_append]
  rfl

/-- A joined list holds what its entries hold. -/
theorem endpoints_intercalate (entries : List (List Char)) :
    endpoints ([','].intercalate entries) = entries.flatMap endpoints := by
  induction entries with
  | nil => rfl
  | cons entry rest ih =>
    cases rest with
    | nil => simp
    | cons next rest =>
      rw [List.intercalate_cons_cons, List.append_assoc, List.singleton_append, endpoints_append,
        ih, List.flatMap_cons (x := entry)]

theorem endpoints_of_mem (member : entry ∈ endpoints cs) : IsEndpoint (String.ofList entry) := by
  obtain ⟨trimmed, filled⟩ := List.mem_filter.mp member
  obtain ⟨piece, cut, rfl⟩ := List.mem_map.mp trimmed
  have padded := Text.padded_stripBoth Text.isBlank piece
  refine ⟨?_, ?_, ?_, ?_⟩
  · intro empty
    rw [← String.toList_inj, String.toList_ofList] at empty
    simp [empty] at filled
  · rw [String.toList_ofList]
    exact fun comma => Text.separator_not_mem_pieces cut (mem_trim comma)
  · rw [String.toList_ofList]
    exact padded.begins
  · rw [String.toList_ofList]
    exact padded.ends

theorem comma_not_blank (blank : ∀ c ∈ cs, Text.isBlank c = true) : ',' ∉ cs := by
  intro comma
  exact absurd (blank ',' comma) (by decide)

theorem endpoints_blank (blank : ∀ c ∈ cs, Text.isBlank c = true) : endpoints cs = [] := by
  have padded : Text.Padded Text.isBlank cs [] :=
    ⟨⟨cs, [], by simp, blank, by simp⟩, by simp, by simp⟩
  rw [endpoints, Text.pieces_whole (comma_not_blank blank), List.map_singleton, Text.trim,
    padded.eq]
  rfl

theorem endpoints_padded {front node back : String} (before : IsBlank front)
    (endpoint : IsEndpoint node) (behind : IsBlank back) :
    endpoints (front ++ node ++ back).toList = [node.toList] := by
  have padded : Text.Padded Text.isBlank (front ++ node ++ back).toList node.toList :=
    ⟨⟨front.toList, back.toList, by simp, before, behind⟩, endpoint.begins, endpoint.ends⟩
  have whole : ',' ∉ (front ++ node ++ back).toList := by
    simp [comma_not_blank before, endpoint.whole, comma_not_blank behind]
  have filled : node.toList ≠ [] := fun empty => endpoint.filled (String.toList_eq_nil_iff.mp empty)
  rw [endpoints, Text.pieces_whole whole, List.map_singleton, Text.trim, padded.eq]
  simp [filled]

theorem Holds.endpoints {entries nodes : List String} (holds : Holds entries nodes) :
    (entries.map String.toList).flatMap endpoints = nodes.map String.toList := by
  induction holds with
  | nil => rfl
  | blank blank _ ih => rw [List.map_cons, List.flatMap_cons, endpoints_blank blank, ih]; rfl
  | padded before endpoint behind _ ih =>
    rw [List.map_cons, List.flatMap_cons, endpoints_padded before endpoint behind, ih]
    rfl

end Lists

/-- The endpoints of a list that stands in options. -/
theorem nodes_eq (o : Options) (list : String) :
    { o with node := list }.nodes = (endpoints list.toList).map String.ofList := rfl

theorem nodes_of_mem {o : Options} {node : String} (member : node ∈ o.nodes) : IsEndpoint node := by
  obtain ⟨entry, listed, rfl⟩ := List.mem_map.mp member
  exact endpoints_of_mem listed

theorem nodes_append (o : Options) (a b : String) :
    { o with node := a ++ "," ++ b }.nodes =
      { o with node := a }.nodes ++ { o with node := b }.nodes := by
  have chars : (a ++ "," ++ b).toList = a.toList ++ ',' :: b.toList := by simp
  rw [nodes_eq, chars, endpoints_append, List.map_append]
  rfl

theorem nodes_of_holds (o : Options) {entries nodes : List String} (holds : Holds entries nodes) :
    { o with node := ",".intercalate entries }.nodes = nodes := by
  have comma : ",".toList = [','] := rfl
  rw [nodes_eq, String.toList_intercalate, comma, endpoints_intercalate, holds.endpoints,
    List.map_map]
  simp

theorem holds_self {nodes : List String} (endpoint : ∀ node ∈ nodes, IsEndpoint node) :
    Holds nodes nodes := by
  induction nodes with
  | nil => exact .nil
  | cons node rest ih =>
    have padded : Holds (("" ++ node ++ "") :: rest) (node :: rest) :=
      .padded (by simp [IsBlank]) (endpoint node List.mem_cons_self) (by simp [IsBlank])
        (ih fun other member => endpoint other (List.mem_cons_of_mem _ member))
    simpa using padded

/-- Reading a list of endpoints. -/
structure ReadsEndpoints (o : Options) : Prop where
  listed : ∀ node ∈ o.nodes, IsEndpoint node
  joined : ∀ a b : String, { o with node := a ++ "," ++ b }.nodes =
    { o with node := a }.nodes ++ { o with node := b }.nodes
  padded : ∀ entries nodes, Holds entries nodes →
    { o with node := ",".intercalate entries }.nodes = nodes
  again : { o with node := ",".intercalate o.nodes }.nodes = o.nodes
  /-- The flag is given one of the endpoints, or is not given at all. -/
  flagged : ∀ draw words, Command.withNode o.nodes draw words = words ∨
    ∃ node ∈ o.nodes, IsEndpoint node ∧
      Command.withNode o.nodes draw words = words ++ [Command.nodeFlag, node]

theorem readsEndpoints (o : Options) : ReadsEndpoints o where
  listed _ := nodes_of_mem
  joined := nodes_append o
  padded _ _ := nodes_of_holds o
  again := nodes_of_holds o (holds_self fun _ => nodes_of_mem)
  flagged draw words := by
    rw [Command.withNode]
    split
    · split
      · rename_i node drawn
        have member : node ∈ o.nodes := List.mem_of_getElem? drawn
        exact .inr ⟨node, member, nodes_of_mem member, rfl⟩
      · exact .inl rfl
    · exact .inl rfl

/-- Padding, a blank entry and an empty one. -/
example : { standard with node := "tcp://a:1, \t,,\u00a0b " }.nodes = ["tcp://a:1", "b"] := by
  decide

end NodeHarness.Options
