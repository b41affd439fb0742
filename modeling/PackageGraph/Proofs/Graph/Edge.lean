import PackageGraph.Proofs.Graph.Dependency

/-!
# The edges of a graph

There is an edge from one node to another exactly when the packages of the first use symbols of the
packages of the second, and it weighs as many symbols as they use (`Model.edges_build`). Whether the
second has a node in the graph does not matter.

A weight is a sum over relations, and a relation is made only between different nodes and for one
symbol at least (`Policy.of_mem_relations`). So a key of the tally is never a loop, and its sum is
never zero.
-/

namespace PackageGraph

open Sorted

/-! ### Relations are proper -/

namespace Policy

/-- A relation stands between two different nodes and weighs something. -/
theorem of_mem_relations {policy : Policy} {fact : Fact} {item : (String × String) × Nat}
    (h : item ∈ policy.relations fact) : item.1.1 ≠ item.1.2 ∧ 0 < item.2 := by
  obtain ⟨-, entry, -, destination, hdestination, hpos, rfl⟩ := mem_relations.1 h
  obtain ⟨relative, -, -, hne, -⟩ := destination?_eq_some.1 hdestination
  exact ⟨hne, hpos⟩

end Policy

/-! ### Look-up -/

namespace Draft

/-- **The weight between two nodes.** -/
theorem get?_weights_ofFacts (policy : Policy) (facts : List Fact) (source destination : String) :
    (ofFacts policy facts).weights.get? (source, destination) =
      if source ≠ destination ∧ 0 < policy.dependency facts source destination then
        some (policy.dependency facts source destination)
      else none := by
  rw [weights_ofFacts, Map.get?_tally]
  set items := facts.flatMap policy.relations with hitems
  have hproper : ∀ item ∈ items, item.1.1 ≠ item.1.2 ∧ 0 < item.2 := by
    intro item hitem
    obtain ⟨fact, -, hmem⟩ := List.mem_flatMap.1 hitem
    exact Policy.of_mem_relations hmem
  by_cases hne : source = destination
  · -- no relation is a loop
    have hnone : (items.filter fun item => item.1 = (source, destination)) = [] := by
      rw [List.filter_eq_nil_iff]
      intro item hitem hkey
      rw [decide_eq_true_eq] at hkey
      refine (hproper item hitem).1 ?_
      rw [hkey]
      exact hne
    rw [if_pos hnone, if_neg fun h => h.1 hne]
  · -- the part of the tally between the two nodes is the double sum
    have hweight : Map.weigh (· = (source, destination)) items =
        policy.dependency facts source destination :=
      Policy.weigh_relations policy policy _ rfl rfl hne (fun d d' => by simp) facts
    rw [hweight]
    by_cases hnil : (items.filter fun item => item.1 = (source, destination)) = []
    · -- no relation at all, so nothing is used
      have hzero : policy.dependency facts source destination = 0 := by
        rw [← hweight, Map.weigh, hnil]
        rfl
      rw [if_pos hnil, hzero, if_neg fun h => Nat.lt_irrefl 0 h.2]
    · -- one relation is enough for a positive sum
      have hpos : 0 < policy.dependency facts source destination := by
        obtain ⟨item, hmem⟩ := List.exists_mem_of_ne_nil _ hnil
        rw [← hweight, Map.weigh, List.sum_pos_iff_exists_pos_nat]
        exact ⟨item.2, List.mem_map_of_mem hmem, (hproper item (List.mem_filter.1 hmem).1).2⟩
      rw [if_neg hnil, if_pos ⟨hne, hpos⟩]

end Draft

namespace Model

/-- The edge between two nodes of the graph of a list of facts. -/
theorem edge?_ofFacts (policy : Policy) (facts : List Fact) (source destination : String) :
    (ofFacts policy facts).edge? source destination =
      if source ≠ destination ∧ 0 < policy.dependency facts source destination then
        some ⟨source, destination, policy.dependency facts source destination,
          policy.isForbidden source destination⟩
      else none := by
  rw [edge?, ofFacts, Draft.finish, Map.get?_mapValues, Draft.get?_weights_ofFacts]
  -- an edge is marked on top of the weight that is found for it
  by_cases h : source ≠ destination ∧ 0 < policy.dependency facts source destination
  · rw [if_pos h, if_pos h, Option.map_some]
  · rw [if_neg h, if_neg h, Option.map_none]

theorem ends_of_get?_edgeMap {policy : Policy} {facts : List Fact} {ends : String × String}
    {edge : Edge} (h : (ofFacts policy facts).edgeMap.get? ends = some edge) :
    (edge.source, edge.destination) = ends := by
  rw [ofFacts, Draft.finish, Map.get?_mapValues, Option.map_eq_some_iff] at h
  obtain ⟨weight, -, rfl⟩ := h
  rfl

/-- The edges of a graph are those that stand between their own ends. -/
theorem mem_edges_ofFacts {policy : Policy} {facts : List Fact} {edge : Edge} :
    edge ∈ (ofFacts policy facts).edges ↔
      (ofFacts policy facts).edge? edge.source edge.destination = some edge := by
  rw [edges, Map.mem_values]
  constructor
  · rintro ⟨ends, hends⟩
    rw [edge?, ends_of_get?_edgeMap hends]
    exact hends
  · exact fun h => ⟨_, h⟩

theorem edges_ofFacts_sorted (policy : Policy) (facts : List Fact) :
    ((ofFacts policy facts).edges.map fun edge => (edge.source, edge.destination)).Pairwise
      fun ends ends' => Key.before ends ends' = true := by
  rw [edges, Map.map_values_eq_keys ends_of_get?_edgeMap]
  exact Map.keys_sorted _

/-- **The edges of a graph.** Between any two identifiers there is an edge exactly when they differ
and the packages of the first use symbols of the packages of the second. Its weight is their number,
and it is marked as the rules say. No identifier is required to have a node, and the list of edges
holds each of them once. -/
theorem edges_build (policy : Policy) (facts : FactSet) :
    (∀ source destination, (build policy facts).edge? source destination =
      if source ≠ destination ∧ 0 < policy.dependency facts.toList source destination then
        some ⟨source, destination, policy.dependency facts.toList source destination,
          policy.isForbidden source destination⟩
      else none) ∧
    (∀ edge, edge ∈ (build policy facts).edges ↔
      (build policy facts).edge? edge.source edge.destination = some edge) ∧
    ((build policy facts).edges.map fun edge => (edge.source, edge.destination)).Pairwise
      fun ends ends' => Key.before ends ends' = true :=
  ⟨edge?_ofFacts policy facts.toList, fun _ => mem_edges_ofFacts,
    edges_ofFacts_sorted policy facts.toList⟩

end Model

end PackageGraph
