import Mathlib.Data.List.Nodup
import PackageGraph.Proofs.Graph.Dependency

/-!
# The nodes of a graph

The node of an identifier is made from the packages that it stands for, in the order in which they
were seen (`Model.node?_ofFacts`): the first gives it name and directory, and those that lie under a
grouping entry are counted.
-/

namespace PackageGraph

open Sorted

namespace Policy

/-- The node that stands for some packages: there is none for no packages. -/
def nodeOf (policy : Policy) (id : String) (packages : List Fact) : Option Node :=
  packages.head?.map fun first =>
    { id := id
      name := first.name
      directory := policy.groupOf first.directory
      containedPackages := packages.countP fun fact => policy.isGrouped fact.directory }

end Policy

namespace Draft

/-- Packages that are left out do not change the nodes. -/
theorem nodes_ofFacts (policy : Policy) (facts : List Fact) :
    (ofFacts policy facts).nodes =
      (facts.filter fun fact => !omits policy fact).foldl
        (fun nodes fact => nodes.upsert (policy.effectiveId fact.directory) (nodeWith policy fact))
        .empty := by
  suffices h : ∀ draft : Draft, (facts.foldl (add policy) draft).nodes =
      (facts.filter fun fact => !omits policy fact).foldl
        (fun nodes fact => nodes.upsert (policy.effectiveId fact.directory) (nodeWith policy fact))
        draft.nodes from h empty
  induction facts with
  | nil => exact fun _ => rfl
  | cons fact facts ih =>
    intro draft
    rw [List.foldl_cons, ih, add]
    -- a package that is left out changes nothing, any other one changes its own node
    by_cases hout : omits policy fact = true
    · rw [if_pos hout, List.filter_cons_of_neg (by simpa using hout)]
    · rw [if_neg hout, List.filter_cons_of_pos (by simpa using hout), List.foldl_cons]

/-- A node that is known only counts the packages that come after it. -/
private theorem foldl_nodeWith_some (policy : Policy) (packages : List Fact) (node : Node) :
    packages.foldl (fun known fact => some (nodeWith policy fact known)) (some node) =
      some { node with
        containedPackages := node.containedPackages +
          packages.countP fun fact => policy.isGrouped fact.directory } := by
  induction packages generalizing node with
  | nil => rfl
  | cons fact packages ih =>
    rw [List.foldl_cons, nodeWith, ih, List.countP_cons]
    -- a package counts if it is grouped
    cases policy.isGrouped fact.directory with
    | true => simp [Nat.add_assoc, Nat.add_comm 1]
    | false => simp

/-- **The node of an identifier in a draft.** -/
theorem get?_nodes_ofFacts (policy : Policy) (facts : List Fact) (id : String) :
    (ofFacts policy facts).nodes.get? id = policy.nodeOf id (policy.members facts id) := by
  rw [nodes_ofFacts, Map.get?_foldl_upsert, List.filter_filter, Map.get?_empty]
  have hmembers : (facts.filter fun fact =>
      decide (policy.effectiveId fact.directory = id) && !omits policy fact) =
        policy.members facts id := by
    rw [Policy.members]
    exact List.filter_congr fun fact _ => Bool.and_comm ..
  rw [hmembers]
  -- the first member makes the node, the others are only counted
  have hid : ∀ fact ∈ policy.members facts id, policy.effectiveId fact.directory = id :=
    fun fact hfact => (Policy.mem_members.1 hfact).2.2
  cases hpackages : policy.members facts id with
  | nil => rfl
  | cons first rest =>
    rw [List.foldl_cons, nodeWith, foldl_nodeWith_some, Policy.nodeOf, List.countP_cons,
      hid first (hpackages ▸ List.mem_cons_self)]
    cases policy.isGrouped first.directory with
    | true => simp [Nat.add_comm]
    | false => simp

end Draft

namespace Model

/-- **The node of an identifier** in the graph of a list of facts. -/
theorem node?_ofFacts (policy : Policy) (facts : List Fact) (id : String) :
    (ofFacts policy facts).node? id = policy.nodeOf id (policy.members facts id) :=
  Draft.get?_nodes_ofFacts policy facts id

theorem id_of_node? {policy : Policy} {facts : List Fact} {id : String} {node : Node}
    (h : (ofFacts policy facts).node? id = some node) : node.id = id := by
  rw [node?_ofFacts, Policy.nodeOf, Option.map_eq_some_iff] at h
  obtain ⟨first, -, rfl⟩ := h
  rfl

/-- The nodes of a graph are those of their own identifiers. -/
theorem mem_nodes_ofFacts {policy : Policy} {facts : List Fact} {node : Node} :
    node ∈ (ofFacts policy facts).nodes ↔
      policy.nodeOf node.id (policy.members facts node.id) = some node := by
  rw [nodes, Map.mem_values, ← node?_ofFacts]
  constructor
  · rintro ⟨id, hid⟩
    rw [id_of_node? hid]
    exact hid
  · exact fun h => ⟨_, h⟩

/-- The identifiers of the nodes are the keys that they are stored under. -/
theorem map_id_nodes (policy : Policy) (facts : List Fact) :
    (ofFacts policy facts).nodes.map Node.id = (ofFacts policy facts).nodeMap.keys :=
  Map.map_values_eq_keys fun h => id_of_node? h

theorem nodes_ofFacts_nodup (policy : Policy) (facts : List Fact) :
    (ofFacts policy facts).nodes.Nodup := by
  refine List.Nodup.of_map Node.id ?_
  rw [map_id_nodes]
  exact Map.keys_nodup _

end Model

end PackageGraph
