import PackageGraph.Proofs.Graph.Run
import PackageGraph.Proofs.Policy.Grouping

/-!
# Every package is counted once

A package that is not left out is in one place of the graph: it has a leaf of its own, or it is
counted by the group of the grouping entry above it (`Model.Census`). So leaves and counts of groups
add up to the number of these packages (`Model.build_census`).

Which packages a node stands for is known from `Policy.members`. For a group these are the packages
at or below its entry (`Policy.members_qualify`), because the entries of a policy lie apart; for any
other node it is one package. The sum over all nodes is a sum over the fibers of
`Policy.effectiveId`, and each package is in one of these.
-/

namespace PackageGraph

open Sorted

namespace Policy

/-- The packages that are not left out. -/
def keptPackages (policy : Policy) (facts : List Fact) : List Fact :=
  facts.filter fun fact => !Draft.omits policy fact

variable {policy : Policy} {facts : List Fact} {fact : Fact} {entry id : String}

/-- The packages that are kept are those that no exclusion omits. -/
theorem mem_keptPackages :
    fact ∈ policy.keptPackages facts ↔ fact ∈ facts ∧ Draft.omits policy fact = false := by
  unfold keptPackages
  rw [List.mem_filter, Bool.not_eq_true']

/-- The members of a node are the packages that are kept and have its identifier. -/
theorem members_eq_filter (policy : Policy) (facts : List Fact) (id : String) :
    policy.members facts id =
      (policy.keptPackages facts).filter fun fact => policy.effectiveId fact.directory = id := by
  unfold members keptPackages
  rw [List.filter_filter]
  exact List.filter_congr fun fact _ => Bool.and_comm ..

/-- **The members of a group are the packages at or below its entry.** -/
theorem members_qualify (hapart : policy.GroupsApart) (hentry : entry ∈ policy.grouping)
    (facts : List Fact) :
    policy.members facts (Path.qualify policy.moduleRoot entry) =
      (policy.keptPackages facts).filter fun fact => Path.isUnder fact.directory entry := by
  rw [members_eq_filter]
  refine List.filter_congr fun fact _ => ?_
  -- the entry is the group of a directory exactly if the directory is under it, as entries lie
  -- apart
  have hid : policy.effectiveId fact.directory = Path.qualify policy.moduleRoot entry ↔
      Path.isUnder fact.directory entry = true := by
    unfold effectiveId
    rw [(Path.qualify_injective policy.moduleRoot).eq_iff]
    exact hapart.groupOf_eq_iff hentry
  rw [Bool.eq_iff_iff, decide_eq_true_eq]
  exact hid

end Policy

namespace Model

/-- What the nodes of a graph under a policy stand for. -/
structure Census (policy : Policy) (facts : List Fact) (model : Model) : Prop where
  /-- No two nodes stand on one directory. -/
  directories_nodup : (model.nodes.map Node.directory).Nodup
  /-- A grouping entry has a group exactly if there is a package at or below it. -/
  group_iff : ∀ entry ∈ policy.grouping, (∃ group ∈ model.groups, group.directory = entry) ↔
    ∃ fact ∈ policy.keptPackages facts, Path.isUnder fact.directory entry = true
  /-- A group stands on a grouping entry and counts the packages at or below it. -/
  of_group : ∀ group ∈ model.groups, group.directory ∈ policy.grouping ∧
    group.containedPackages =
      (policy.keptPackages facts).countP fun fact => Path.isUnder fact.directory group.directory
  /-- The leaves are the packages that lie under no grouping entry. -/
  leaf_iff : ∀ node, node ∈ model.nodes ∧ node.kind = .leaf ↔
    ∃ fact ∈ policy.keptPackages facts,
      (∀ entry ∈ policy.grouping, Path.isUnder fact.directory entry = false) ∧
        leafOf policy.moduleRoot fact = node

variable {policy : Policy} {facts : List Fact} {node : Node} {entry : String}

/-! ### Kinds of nodes -/

theorem not_group_iff (node : Node) : ¬node.kind = .group ↔ node.kind = .leaf := by
  cases node.kind <;> simp

/-- **A node is a group exactly if it stands on a grouping entry.** -/
theorem kind_eq_group_iff (h : node ∈ (ofFacts policy facts).nodes) :
    node.kind = .group ↔ node.directory ∈ policy.grouping := by
  rw [← (sound_of_mem_nodes h).counts_iff]
  unfold Node.kind
  split
  · next hpos => simp [hpos]
  · next hzero => simp [hzero]

/-- A node is a leaf exactly if it stands on no grouping entry. -/
theorem kind_eq_leaf_iff (h : node ∈ (ofFacts policy facts).nodes) :
    node.kind = .leaf ↔ node.directory ∉ policy.grouping := by
  rw [← kind_eq_group_iff h, not_group_iff]

/-- The groups of a graph are the nodes on grouping entries. -/
theorem mem_groups_ofFacts :
    node ∈ (ofFacts policy facts).groups ↔
      node ∈ (ofFacts policy facts).nodes ∧ node.directory ∈ policy.grouping := by
  unfold groups
  rw [List.mem_filter, decide_eq_true_eq]
  exact and_congr_right kind_eq_group_iff

theorem directories_nodes_nodup (policy : Policy) (facts : List Fact) :
    ((ofFacts policy facts).nodes.map Node.directory).Nodup := by
  refine List.Nodup.of_map (Path.qualify policy.moduleRoot) ?_
  -- qualified, the directories are the identifiers
  have hids : ((ofFacts policy facts).nodes.map Node.directory).map
      (Path.qualify policy.moduleRoot) = (ofFacts policy facts).nodes.map Node.id := by
    rw [List.map_map]
    exact List.map_congr_left fun node hnode => (sound_of_mem_nodes hnode).id_eq_qualify.symm
  rw [hids, map_id_nodes]
  exact Map.keys_nodup _

/-- A directory that packages are counted under has a node. -/
theorem exists_node_of_members_ne_nil
    (h : policy.members facts (Path.qualify policy.moduleRoot entry) ≠ []) :
    ∃ node ∈ (ofFacts policy facts).nodes, node.directory = entry := by
  obtain ⟨node, hnode, hid⟩ := List.mem_map.1 (mem_map_id_nodes.2 h)
  refine ⟨node, hnode, Path.qualify_injective policy.moduleRoot ?_⟩
  rw [← (sound_of_mem_nodes hnode).id_eq_qualify, hid]

/-! ### Groups -/

section Groups

variable (hapart : policy.GroupsApart)

include hapart

/-- A grouping entry has a group exactly if there is a package at or below it. -/
theorem exists_group_iff (hentry : entry ∈ policy.grouping) :
    (∃ group ∈ (ofFacts policy facts).groups, group.directory = entry) ↔
      ∃ fact ∈ policy.keptPackages facts, Path.isUnder fact.directory entry = true := by
  have hmembers := Policy.members_qualify hapart hentry facts
  constructor
  · -- a group has a first member
    rintro ⟨group, hgroup, rfl⟩
    have hnode := (mem_groups_ofFacts.1 hgroup).1
    obtain ⟨first, hfirst, -⟩ := exists_first_of_mem_nodes hnode
    rw [(sound_of_mem_nodes hnode).id_eq_qualify, hmembers] at hfirst
    exact ⟨first, List.mem_filter.1 hfirst⟩
  · -- a package is a member of the entry above it, which has a node for it
    rintro ⟨fact, hfact, hunder⟩
    have hmember : fact ∈ policy.members facts (Path.qualify policy.moduleRoot entry) := by
      rw [hmembers]
      exact List.mem_filter.2 ⟨hfact, hunder⟩
    obtain ⟨node, hnode, hdirectory⟩ := exists_node_of_members_ne_nil (List.ne_nil_of_mem hmember)
    subst hdirectory
    exact ⟨node, mem_groups_ofFacts.2 ⟨hnode, hentry⟩, rfl⟩

/-- A group counts the packages at or below its entry. -/
theorem containedPackages_of_mem_groups (h : node ∈ (ofFacts policy facts).groups) :
    node.containedPackages =
      (policy.keptPackages facts).countP fun fact =>
        Path.isUnder fact.directory node.directory := by
  obtain ⟨hnode, hentry⟩ := mem_groups_ofFacts.1 h
  rw [containedPackages_eq_length hnode hentry, (sound_of_mem_nodes hnode).id_eq_qualify,
    Policy.members_qualify hapart hentry, List.countP_eq_length_filter]

end Groups

/-! ### Leaves -/

section Leaves

variable (hnodup : (facts.map Fact.directory).Nodup)

include hnodup

/-- A package under no entry is alone on its node. -/
theorem leafOf_mem_nodes {fact : Fact} (hfact : fact ∈ policy.keptPackages facts)
    (hfree : policy.isGrouped fact.directory = false) :
    leafOf policy.moduleRoot fact ∈ (ofFacts policy facts).nodes := by
  obtain ⟨hmem, hkept⟩ := Policy.mem_keptPackages.1 hfact
  have hself : policy.groupOf fact.directory = fact.directory :=
    Policy.groupOf_of_not_isGrouped hfree
  have hleaf : policy.groupOf fact.directory ∉ policy.grouping := by
    rw [← Policy.isGrouped_iff, hfree]
    exact Bool.false_ne_true
  have hid : policy.effectiveId fact.directory = (leafOf policy.moduleRoot fact).id := by
    unfold Policy.effectiveId
    rw [hself]
    rfl
  -- two packages share a node only in a group
  have halone := Policy.members_eq_singleton hnodup (Policy.mem_members.2 ⟨hmem, hkept, hid⟩) hleaf
  rw [mem_nodes_ofFacts, halone]
  unfold Policy.nodeOf leafOf
  simp [hself, hfree]

/-- The leaves are the packages that lie under no grouping entry. -/
theorem mem_leaves_iff :
    node ∈ (ofFacts policy facts).nodes ∧ node.kind = .leaf ↔
      ∃ fact ∈ policy.keptPackages facts,
        (∀ entry ∈ policy.grouping, Path.isUnder fact.directory entry = false) ∧
          leafOf policy.moduleRoot fact = node := by
  constructor
  · -- a leaf has one member, which is not grouped
    rintro ⟨hnode, hkind⟩
    have hleaf : node.directory ∉ policy.grouping := (kind_eq_leaf_iff hnode).1 hkind
    obtain ⟨fact, halone, hfree, heq⟩ := exists_leafOf_of_not_mem_grouping hnodup hnode hleaf
    have hmember : fact ∈ policy.members facts node.id := halone ▸ List.mem_singleton_self fact
    rw [Policy.members_eq_filter] at hmember
    exact ⟨fact, List.mem_of_mem_filter hmember, Policy.isGrouped_eq_false_iff.1 hfree, heq⟩
  · rintro ⟨fact, hfact, hfree, rfl⟩
    exact ⟨leafOf_mem_nodes hnodup hfact (Policy.isGrouped_eq_false_iff.2 hfree), rfl⟩

theorem length_members_of_leaf (hnode : node ∈ (ofFacts policy facts).nodes)
    (hkind : node.kind = .leaf) : (policy.members facts node.id).length = 1 := by
  obtain ⟨fact, halone, -⟩ :=
    exists_leafOf_of_not_mem_grouping hnodup hnode ((kind_eq_leaf_iff hnode).1 hkind)
  rw [halone]
  rfl

end Leaves

/-! ### Counting -/

/-- **Every package is a member of one node.** -/
theorem sum_length_members (policy : Policy) (facts : List Fact) :
    ((ofFacts policy facts).nodes.map fun node => (policy.members facts node.id).length).sum =
      (policy.keptPackages facts).length := by
  -- the packages of the nodes are the fibers of the map from packages to identifiers
  have hfibers : ((ofFacts policy facts).nodes.map fun node =>
      (policy.members facts node.id).length) =
        (ofFacts policy facts).nodeMap.keys.map fun id =>
          ((policy.keptPackages facts).filter fun fact =>
            policy.effectiveId fact.directory = id).length := by
    rw [← map_id_nodes, List.map_map]
    refine List.map_congr_left fun node _ => ?_
    rw [Policy.members_eq_filter]
    rfl
  rw [hfibers]
  refine Map.sum_length_fibers _ _ fun fact hfact => ?_
  obtain ⟨hmem, hkept⟩ := Policy.mem_keptPackages.1 hfact
  have hmember : fact ∈ policy.members facts (policy.effectiveId fact.directory) :=
    Policy.mem_members.2 ⟨hmem, hkept, rfl⟩
  rw [← map_id_nodes]
  exact mem_map_id_nodes.2 (List.ne_nil_of_mem hmember)

/-- The leaves are counted as what the groups leave. -/
theorem leafNodes_eq (model : Model) :
    model.stats.leafNodes = (model.nodes.filter fun node => ¬node.kind = .group).length := by
  have hsplit := List.length_eq_length_filter_add (l := model.nodes) fun node => node.kind = .group
  change model.nodes.length - model.groups.length = _
  simp only [decide_not]
  unfold groups
  omega

/-- **Leaves and counts of groups add up** to the number of packages that are kept. -/
theorem leafNodes_add_sum_containedPackages (hnodup : (facts.map Fact.directory).Nodup) :
    (ofFacts policy facts).stats.leafNodes +
        ((ofFacts policy facts).groups.map Node.containedPackages).sum =
      (policy.keptPackages facts).length := by
  set nodes := (ofFacts policy facts).nodes with hnodes
  have hsplit := List.sum_map_filter_add_sum_map_filter_not (fun node => node.kind = .group)
    (fun node => (policy.members facts node.id).length) nodes
  -- a group stands for as many packages as it counts, a leaf for one
  have hgroups : ((nodes.filter fun node => node.kind = .group).map fun node =>
      (policy.members facts node.id).length) =
        (ofFacts policy facts).groups.map Node.containedPackages := by
    refine List.map_congr_left fun node hnode => ?_
    obtain ⟨hmem, hentry⟩ := mem_groups_ofFacts.1 hnode
    exact (containedPackages_eq_length hmem hentry).symm
  have hleaves : ((nodes.filter fun node => ¬node.kind = .group).map fun node =>
      (policy.members facts node.id).length) =
        (nodes.filter fun node => ¬node.kind = .group).map fun _ => 1 := by
    refine List.map_congr_left fun node hnode => ?_
    obtain ⟨hmem, hkind⟩ := List.mem_filter.1 hnode
    rw [decide_eq_true_eq, not_group_iff] at hkind
    exact length_members_of_leaf hnodup hmem hkind
  rw [hgroups, hleaves, sum_length_members, List.map_const', List.sum_replicate_nat,
    Nat.mul_one] at hsplit
  rw [leafNodes_eq, Nat.add_comm]
  exact hsplit

/-! ### The census of a graph -/

/-- The census of a graph, under a policy whose grouping entries lie apart. -/
theorem census_build (hapart : policy.GroupsApart) (facts : FactSet) :
    Census policy facts.toList (build policy facts) where
  directories_nodup := directories_nodes_nodup policy facts.toList
  group_iff _ hentry := exists_group_iff hapart hentry
  of_group _ hgroup :=
    ⟨(mem_groups_ofFacts.1 hgroup).2, containedPackages_of_mem_groups hapart hgroup⟩
  leaf_iff _ := mem_leaves_iff facts.directories_nodup

/-- **Every package is counted once.** Under a policy that was made from rules, the nodes of the
graph are a group for each grouping entry that has packages at or below it, which counts these
packages, and a leaf for each package that lies under no entry, with the name and the directory of
the package; packages that are left out are not there. So the leaves and the counts of the groups
add up to the number of packages that are not left out, every node is a leaf or a group, and the
statistics are the number of edges, the number of marked edges and the sum of the weights. -/
theorem build_census {rules : PolicyRules} {moduleRoot project : String} {disk : Disk}
    (hpolicy : Policy.ofRules rules moduleRoot disk project = .ok policy) (facts : FactSet) :
    Census policy facts.toList (build policy facts) ∧
    (build policy facts).stats.leafNodes +
        ((build policy facts).groups.map Node.containedPackages).sum =
      (policy.keptPackages facts.toList).length ∧
    (build policy facts).stats.leafNodes + (build policy facts).stats.groupNodes =
      (build policy facts).nodes.length ∧
    (build policy facts).stats.edges = (build policy facts).edges.length ∧
    (build policy facts).stats.forbiddenEdges =
      (build policy facts).edges.countP Edge.forbidden ∧
    (build policy facts).stats.totalWeight = ((build policy facts).edges.map Edge.weight).sum := by
  refine ⟨?_, ?_, ?_, rfl, ?_, ?_⟩
  · exact census_build (Policy.groupsApart_ofRules hpolicy) facts
  · exact leafNodes_add_sum_containedPackages facts.directories_nodup
  · have hle : (build policy facts).groups.length ≤ (build policy facts).nodes.length :=
      List.length_filter_le _ _
    exact Nat.sub_add_cancel hle
  · exact List.countP_eq_length_filter.symm
  · exact Edge.totalWeight_eq_sum _

/-- A group with a package on its own entry and one that is left out, an entry without packages, and
a directory whose name only begins like an entry. -/
theorem build_census_library :
    let rules : PolicyRules := ⟨["./lib/", "gen"], ["mod/old", "mod/lib/b"], [], []⟩
    let facts := FactSet.ofList
      [Fact.ofName "lib" "lib", Fact.ofName "a" "lib/a", Fact.ofName "b" "lib/b",
        Fact.ofName "libx" "libx", Fact.ofName "old" "old", Fact.ofName "main" ""]
    ∃ policy, Policy.ofRules rules "mod" ⟨.directory [], []⟩ "" = .ok policy ∧
      (build policy facts).nodes.map (fun node => (node.directory, node.containedPackages)) =
        [("", 0), ("lib", 2), ("libx", 0)] ∧
      (build policy facts).stats.leafNodes +
          ((build policy facts).groups.map Node.containedPackages).sum =
        (policy.keptPackages facts.toList).length := by
  intro rules facts
  have hpolicy : Policy.ofRules rules "mod" ⟨.directory [], []⟩ "" =
      .ok ⟨"mod", ["gen", "lib"], .ofList ["mod/lib/b", "mod/old"], .empty⟩ := by rfl
  exact ⟨_, hpolicy, by decide +kernel, (build_census hpolicy facts).2.1⟩

end Model

end PackageGraph
