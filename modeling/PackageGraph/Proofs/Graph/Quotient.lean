import PackageGraph.Proofs.Fact.Collected
import PackageGraph.Proofs.Graph.Edge
import PackageGraph.Proofs.Graph.Node
import PackageGraph.Proofs.Path.Qualify

/-!
# Grouping is a quotient

The graph under a policy is the graph under the same policy without grouping, with nodes put
together (`Model.build_quotient`). The map that puts them together is `Policy.collapse`: it sends
the identifier of a package to the identifier of the node that stands for the package. Nodes are its
images, a group counts its preimages, a node that is no group is its own and only preimage, and the
weight between two nodes is the sum of the weights between their preimages.

Both graphs are compared through the facts. Without grouping, the nodes are the packages that are
not left out, one by one (`Model.nodes_ungrouped_perm`), and the weights of the small edges are
weights of the relations that also make the large ones (`Policy.weigh_relations`).
-/

namespace PackageGraph

open Sorted

/-- The total weight of some edges is the sum of their weights. -/
theorem Edge.totalWeight_eq_sum (edges : List Edge) :
    totalWeight edges = (edges.map weight).sum := by
  induction edges with
  | nil => rfl
  | cons edge edges ih => rw [totalWeight, ih, List.map_cons, List.sum_cons]

/-! ### The collapsing map -/

namespace Policy

/-- The same policy without grouping. -/
def ungrouped (policy : Policy) : Policy := { policy with grouping := [] }

/-- The node that stands for the package of an identifier. What is no identifier of the module stays
as it is. -/
def collapse (policy : Policy) (id : String) : String :=
  match Path.relativeTo? policy.moduleRoot id with
  | none => id
  | some directory => policy.effectiveId directory

@[simp] theorem collapse_qualify (policy : Policy) (directory : String) :
    policy.collapse (Path.qualify policy.moduleRoot directory) = policy.effectiveId directory := by
  rw [collapse, Path.relativeTo?_qualify]

@[simp] theorem moduleRoot_ungrouped (policy : Policy) :
    policy.ungrouped.moduleRoot = policy.moduleRoot := rfl

@[simp] theorem excluded_ungrouped (policy : Policy) :
    policy.ungrouped.excluded = policy.excluded := rfl

@[simp] theorem effectiveId_ungrouped (policy : Policy) (directory : String) :
    policy.ungrouped.effectiveId directory = Path.qualify policy.moduleRoot directory := rfl

@[simp] theorem groupOf_ungrouped (policy : Policy) (directory : String) :
    policy.ungrouped.groupOf directory = directory := rfl

@[simp] theorem isGrouped_ungrouped (policy : Policy) (directory : String) :
    policy.ungrouped.isGrouped directory = false := rfl

@[simp] theorem omits_ungrouped (policy : Policy) (fact : Fact) :
    Draft.omits policy.ungrouped fact = Draft.omits policy fact := rfl

/-- Two directories have one node exactly if one directory stands for both. -/
theorem effectiveId_eq_iff {policy : Policy} {directory other : String} :
    policy.effectiveId directory = policy.effectiveId other ↔
      policy.groupOf directory = policy.groupOf other :=
  (Path.qualify_injective policy.moduleRoot).eq_iff

/-- **A directory is grouped exactly when a grouping entry stands for it.** -/
theorem isGrouped_iff {policy : Policy} {directory : String} :
    policy.isGrouped directory = true ↔ policy.groupOf directory ∈ policy.grouping := by
  rw [isGrouped, groupOf]
  cases hentry : policy.groupRoot? directory with
  -- what stands for a directory below an entry is the entry
  | some entry => simpa using List.mem_of_find?_eq_some hentry
  | none =>
    -- an entry is at or below itself, so no entry goes without a group
    rw [groupRoot?, List.find?_eq_none] at hentry
    simp only [Option.isSome_none, Bool.false_eq_true, Option.getD_none, false_iff]
    exact fun hmem => hentry directory hmem (Path.isUnder_self directory)

/-- A directory outside all groups stands for itself. -/
theorem groupOf_of_not_isGrouped {policy : Policy} {directory : String}
    (h : policy.isGrouped directory = false) : policy.groupOf directory = directory := by
  rw [isGrouped, Option.isSome_eq_false_iff, Option.isNone_iff_eq_none] at h
  rw [groupOf, h, Option.getD_none]

/-- A directory that no grouping entry stands for stands for itself. -/
theorem groupOf_eq_self {policy : Policy} {directory : String}
    (h : policy.groupOf directory ∉ policy.grouping) : policy.groupOf directory = directory :=
  groupOf_of_not_isGrouped (Bool.eq_false_iff.2 fun hgrouped => h (isGrouped_iff.1 hgrouped))

/-! ### The members of a node -/

/-- A node whose directory is a grouping entry stands for grouped packages only. -/
theorem countP_isGrouped_members {policy : Policy} {facts : List Fact} {id : String} {first : Fact}
    (hfirst : first ∈ policy.members facts id)
    (hgroup : policy.groupOf first.directory ∈ policy.grouping) :
    (policy.members facts id).countP (fun fact => policy.isGrouped fact.directory) =
      (policy.members facts id).length := by
  rw [List.countP_eq_length]
  intro fact hfact
  have hid := (mem_members.1 hfact).2.2.trans (mem_members.1 hfirst).2.2.symm
  rw [isGrouped_iff, effectiveId_eq_iff.1 hid]
  exact hgroup

/-- Any other node stands for one package. -/
theorem members_eq_singleton {policy : Policy} {facts : List Fact} {id : String} {first : Fact}
    (hnodup : (facts.map Fact.directory).Nodup) (hfirst : first ∈ policy.members facts id)
    (hleaf : policy.groupOf first.directory ∉ policy.grouping) :
    policy.members facts id = [first] := by
  have halone : ∀ fact ∈ policy.members facts id, fact = first := by
    intro fact hfact
    obtain ⟨hmem, -, hid⟩ := mem_members.1 hfact
    obtain ⟨hmem', -, hid'⟩ := mem_members.1 hfirst
    have hgroup := effectiveId_eq_iff.1 (hid.trans hid'.symm)
    -- neither is grouped, so each stands for itself
    have hsame : fact.directory = first.directory :=
      (groupOf_eq_self (hgroup ▸ hleaf)).symm.trans (hgroup.trans (groupOf_eq_self hleaf))
    exact List.inj_on_of_nodup_map hnodup hmem hmem' hsame
  -- a list without repetitions that holds one fact only is this fact alone
  have hmembers : (policy.members facts id).Nodup :=
    (List.Nodup.of_map Fact.directory hnodup).filter _
  rw [List.eq_replicate_iff.2 ⟨rfl, halone⟩] at hmembers ⊢
  rw [List.nodup_replicate] at hmembers
  have hpos := List.length_pos_of_mem hfirst
  rw [show (policy.members facts id).length = 1 by omega]
  rfl

end Policy

/-! ### Nodes -/

namespace Model

/-- The node of a single package. -/
def leafOf (moduleRoot : String) (fact : Fact) : Node :=
  ⟨Path.qualify moduleRoot fact.directory, fact.name, fact.directory, 0⟩

/-- Without grouping, a node is a package that is not left out. -/
theorem mem_nodes_ungrouped {policy : Policy} {facts : List Fact} {node : Node}
    (hnodup : (facts.map Fact.directory).Nodup) :
    node ∈ (ofFacts policy.ungrouped facts).nodes ↔
      ∃ fact ∈ facts, Draft.omits policy fact = false ∧
        leafOf policy.moduleRoot fact = node := by
  rw [mem_nodes_ofFacts, Policy.nodeOf, Option.map_eq_some_iff]
  constructor
  · rintro ⟨first, hfirst, hnode⟩
    obtain ⟨hmem, hkept, hid⟩ := Policy.mem_members.1 (List.mem_of_head? hfirst)
    -- the first package makes the node, and without grouping it is counted nowhere
    refine ⟨first, hmem, hkept, ?_⟩
    rw [← hnode, leafOf, ← Policy.effectiveId_ungrouped, hid]
    simp
  · rintro ⟨fact, hfact, hkept, rfl⟩
    have hmember : fact ∈ policy.ungrouped.members facts
        (leafOf policy.moduleRoot fact).id := Policy.mem_members.2 ⟨hfact, hkept, rfl⟩
    cases hpackages : policy.ungrouped.members facts (leafOf policy.moduleRoot fact).id with
    | nil => exact absurd (hpackages ▸ hmember) List.not_mem_nil
    | cons first rest =>
      -- the first package has the same identifier, so it is the same package
      obtain ⟨hmem, -, hid⟩ := Policy.mem_members.1
        (show first ∈ policy.ungrouped.members facts _ from hpackages ▸ List.mem_cons_self)
      have hsame : first = fact := List.inj_on_of_nodup_map hnodup hmem hfact
        (Path.qualify_injective policy.moduleRoot hid)
      subst hsame
      exact ⟨first, rfl, by simp [leafOf]⟩

/-- **Without grouping, the nodes are the packages that are not left out**, one by one. -/
theorem nodes_ungrouped_perm {policy : Policy} {facts : List Fact}
    (hnodup : (facts.map Fact.directory).Nodup) :
    (ofFacts policy.ungrouped facts).nodes.Perm
      ((facts.filter fun fact => !Draft.omits policy fact).map (leafOf policy.moduleRoot)) := by
  have hleaves : ((facts.filter fun fact => !Draft.omits policy fact).map
      (leafOf policy.moduleRoot)).Nodup := by
    -- different packages have different directories
    refine List.Nodup.of_map Node.directory ?_
    rw [List.map_map]
    exact (List.filter_sublist.map Fact.directory).nodup hnodup
  rw [List.perm_ext_iff_of_nodup (nodes_ofFacts_nodup _ _) hleaves]
  intro node
  rw [mem_nodes_ungrouped hnodup]
  simp [and_assoc]

/-- The nodes that collapse into one are the packages that this one stands for. -/
theorem filter_collapse_perm (policy : Policy) {facts : List Fact}
    (hnodup : (facts.map Fact.directory).Nodup) (id : String) :
    ((ofFacts policy.ungrouped facts).nodes.filter fun small =>
        policy.collapse small.id = id).Perm
      ((policy.members facts id).map (leafOf policy.moduleRoot)) := by
  refine ((nodes_ungrouped_perm hnodup).filter _).trans (List.Perm.of_eq ?_)
  rw [List.filter_map, List.filter_filter, Policy.members]
  -- a package collapses into a node exactly if it is a member of it
  congr 1
  refine List.filter_congr fun fact _ => ?_
  rw [Function.comp_apply, leafOf, Policy.collapse_qualify, Bool.and_comm, Draft.omits]

/-! ### Edges -/

/-- The weight between two different nodes is what one uses of the other. -/
theorem weight_ofFacts (policy : Policy) (facts : List Fact) {source destination : String}
    (hne : source ≠ destination) :
    (ofFacts policy facts).weight source destination =
      policy.dependency facts source destination := by
  rw [weight, edge?_ofFacts]
  by_cases hpos : 0 < policy.dependency facts source destination
  · rw [if_pos ⟨hne, hpos⟩]
    rfl
  · -- where nothing is used there is no edge, and the weight of no edge is zero
    rw [if_neg fun h => hpos h.2]
    exact (Nat.eq_zero_of_not_pos hpos).symm

/-- Edges weigh what their entries in the draft weigh. -/
theorem totalWeight_filter_edges (policy : Policy) (facts : List Fact)
    (p : String × String → Bool) :
    Edge.totalWeight ((ofFacts policy facts).edges.filter fun edge =>
        p (edge.source, edge.destination)) =
      Map.weigh p (Draft.ofFacts policy facts).weights.entries := by
  rw [Edge.totalWeight_eq_sum, edges, ofFacts, Draft.finish, Map.values, Map.mapValues,
    List.map_map, List.filter_map, List.map_map, Map.weigh]
  rfl

/-- The weight between two different nodes is the weight between the nodes that collapse into
them. -/
theorem weight_quotient (policy : Policy) (facts : List Fact) {source destination : String}
    (hne : source ≠ destination) :
    (ofFacts policy facts).weight source destination =
      Edge.totalWeight ((ofFacts policy.ungrouped facts).edges.filter fun edge =>
        policy.collapse edge.source = source ∧ policy.collapse edge.destination = destination) := by
  have htotal := totalWeight_filter_edges policy.ungrouped facts fun ends =>
    policy.collapse ends.1 = source ∧ policy.collapse ends.2 = destination
  have hrelations := Policy.weigh_relations policy.ungrouped policy
    (fun ends => policy.collapse ends.1 = source ∧ policy.collapse ends.2 = destination)
    policy.moduleRoot_ungrouped policy.excluded_ungrouped hne (fun d d' => by simp) facts
  -- both graphs weigh one list of relations, which the collapsing map sorts
  calc (ofFacts policy facts).weight source destination
      = policy.dependency facts source destination := weight_ofFacts policy facts hne
    _ = Map.weigh _ (facts.flatMap policy.ungrouped.relations) := hrelations.symm
    _ = Map.weigh _ (Draft.ofFacts policy.ungrouped facts).weights.entries := by
        rw [Draft.weights_ofFacts, Map.weigh_entries_tally]
    _ = _ := htotal.symm

/-! ### The quotient -/

/-- A node has the name and the directory of its first package, and counts those that are grouped.
-/
theorem exists_first_of_mem_nodes {policy : Policy} {facts : List Fact} {node : Node}
    (h : node ∈ (ofFacts policy facts).nodes) :
    ∃ first ∈ policy.members facts node.id, node =
      { id := node.id
        name := first.name
        directory := policy.groupOf first.directory
        containedPackages :=
          (policy.members facts node.id).countP fun fact => policy.isGrouped fact.directory } := by
  rw [mem_nodes_ofFacts, Policy.nodeOf, Option.map_eq_some_iff] at h
  obtain ⟨first, hfirst, hnode⟩ := h
  exact ⟨first, List.mem_of_head? hfirst, hnode.symm⟩

/-- An identifier has a node exactly when it stands for some package. -/
theorem mem_map_id_nodes {policy : Policy} {facts : List Fact} {id : String} :
    id ∈ (ofFacts policy facts).nodes.map Node.id ↔ policy.members facts id ≠ [] := by
  rw [List.mem_map]
  constructor
  · rintro ⟨node, hnode, rfl⟩
    obtain ⟨first, hfirst, -⟩ := exists_first_of_mem_nodes hnode
    exact List.ne_nil_of_mem hfirst
  · intro hne
    obtain ⟨node, hnode⟩ : ∃ node, policy.nodeOf id (policy.members facts id) = some node := by
      rw [← Option.isSome_iff_exists, Policy.nodeOf, Option.isSome_map, List.isSome_head?]
      simpa using hne
    -- the node of an identifier that stands for packages has this identifier
    have hid : node.id = id := id_of_node? ((node?_ofFacts policy facts id).trans hnode)
    refine ⟨node, mem_nodes_ofFacts.2 ?_, hid⟩
    rw [hid]
    exact hnode

/-- A node on a grouping entry counts its members. -/
theorem containedPackages_eq_length {policy : Policy} {facts : List Fact} {node : Node}
    (hnode : node ∈ (ofFacts policy facts).nodes) (hgroup : node.directory ∈ policy.grouping) :
    node.containedPackages = (policy.members facts node.id).length := by
  obtain ⟨first, hfirst, heq⟩ := exists_first_of_mem_nodes hnode
  rw [heq] at hgroup
  rw [← Policy.countP_isGrouped_members hfirst hgroup, heq]

section Preimages

variable {policy : Policy} {facts : List Fact} (hnodup : (facts.map Fact.directory).Nodup)

include hnodup

/-- The identifiers of a graph are the images of those of the graph without grouping. -/
theorem mem_map_id_nodes_iff_collapse {id : String} :
    id ∈ (ofFacts policy facts).nodes.map Node.id ↔
      id ∈ (ofFacts policy.ungrouped facts).nodes.map fun small => policy.collapse small.id := by
  -- an identifier has members exactly when nodes collapse into it
  rw [mem_map_id_nodes, ← List.length_pos_iff, ← List.length_map (leafOf policy.moduleRoot),
    ← (filter_collapse_perm policy hnodup id).length_eq, List.length_pos_iff_exists_mem,
    List.mem_map]
  simp only [List.mem_filter, decide_eq_true_eq]

/-- A node on a grouping entry counts the nodes that collapse into it. -/
theorem containedPackages_of_mem_grouping {node : Node}
    (hnode : node ∈ (ofFacts policy facts).nodes) (hgroup : node.directory ∈ policy.grouping) :
    node.containedPackages = ((ofFacts policy.ungrouped facts).nodes.filter fun small =>
      policy.collapse small.id = node.id).length := by
  rw [(filter_collapse_perm policy hnodup node.id).length_eq, List.length_map]
  exact containedPackages_eq_length hnode hgroup

/-- Any other node is that of one package, which lies under no entry. -/
theorem exists_leafOf_of_not_mem_grouping {node : Node}
    (hnode : node ∈ (ofFacts policy facts).nodes) (hleaf : node.directory ∉ policy.grouping) :
    ∃ fact, policy.members facts node.id = [fact] ∧ policy.isGrouped fact.directory = false ∧
      leafOf policy.moduleRoot fact = node := by
  obtain ⟨first, hfirst, heq⟩ := exists_first_of_mem_nodes hnode
  rw [heq] at hleaf
  have halone := Policy.members_eq_singleton hnodup hfirst hleaf
  -- a grouped package would make its node one on a grouping entry
  have hfree : policy.isGrouped first.directory = false :=
    Bool.eq_false_iff.2 fun hyes => hleaf (Policy.isGrouped_iff.1 hyes)
  refine ⟨first, halone, hfree, ?_⟩
  rw [heq, halone, leafOf, ← (Policy.mem_members.1 hfirst).2.2, Policy.effectiveId,
    Policy.groupOf_of_not_isGrouped hfree]
  simp [hfree]

/-- So it is the only one that collapses into it, and counts nothing. -/
theorem filter_collapse_of_not_mem_grouping {node : Node}
    (hnode : node ∈ (ofFacts policy facts).nodes) (hleaf : node.directory ∉ policy.grouping) :
    ((ofFacts policy.ungrouped facts).nodes.filter fun small =>
      policy.collapse small.id = node.id) = [node] ∧ node.containedPackages = 0 := by
  obtain ⟨fact, halone, -, hself⟩ := exists_leafOf_of_not_mem_grouping hnodup hnode hleaf
  constructor
  · have hperm := filter_collapse_perm policy hnodup node.id
    rw [halone, List.map_singleton, hself] at hperm
    exact List.perm_singleton.1 hperm
  · rw [← hself]
    rfl

end Preimages

/-- **Grouping is a quotient.** The map `Policy.collapse` sends the identifier of a package to the
identifier that stands for it. The identifiers of the graph are the images of those of the graph
without grouping. A node on a grouping entry counts its preimages; any other node is its own
preimage and has no other. The weight between two nodes is the sum of the weights between their
preimages, and no node has an edge to itself. -/
theorem build_quotient (policy : Policy) (facts : FactSet) :
    (∀ directory, policy.collapse (Path.qualify policy.moduleRoot directory) =
      policy.effectiveId directory) ∧
    (∀ id, id ∈ (build policy facts).nodes.map Node.id ↔
      id ∈ (build policy.ungrouped facts).nodes.map fun small => policy.collapse small.id) ∧
    (∀ node ∈ (build policy facts).nodes, node.directory ∈ policy.grouping →
      node.containedPackages = ((build policy.ungrouped facts).nodes.filter fun small =>
        policy.collapse small.id = node.id).length) ∧
    (∀ node ∈ (build policy facts).nodes, node.directory ∉ policy.grouping →
      ((build policy.ungrouped facts).nodes.filter fun small =>
        policy.collapse small.id = node.id) = [node] ∧ node.containedPackages = 0) ∧
    (∀ source destination, source ≠ destination →
      (build policy facts).weight source destination =
        Edge.totalWeight ((build policy.ungrouped facts).edges.filter fun edge =>
          policy.collapse edge.source = source ∧
            policy.collapse edge.destination = destination)) ∧
    ∀ id, (build policy facts).edge? id id = none := by
  refine ⟨policy.collapse_qualify, ?_, ?_, ?_, ?_, ?_⟩
  · exact fun id => mem_map_id_nodes_iff_collapse facts.directories_nodup
  · exact fun node => containedPackages_of_mem_grouping facts.directories_nodup
  · exact fun node => filter_collapse_of_not_mem_grouping facts.directories_nodup
  · exact fun source destination hne => weight_quotient policy facts.toList hne
  · intro id
    rw [build, edge?_ofFacts, if_neg fun h => h.1 rfl]

end Model

end PackageGraph
