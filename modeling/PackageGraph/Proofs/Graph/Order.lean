import PackageGraph.Proofs.Graph.Quotient

/-!
# The order of facts

Facts on different directories may be visited in any order. The records of the graph stay the same,
and of the graph itself nothing changes but the name that a group remembers, which is that of its
first package (`Model.ofFacts_perm`).

Nothing is said about the steps of the builder. What it arrives at is known from the facts: weights
are sums over the packages of a node, and such a sum does not depend on the order
(`Draft.weights_perm`). A node is made from its packages as well. If it is a group, then all of them
give it the same directory and the same count, so that only the name may change; otherwise there is
one package, and no order (`Policy.nodeOf_perm`).
-/

namespace PackageGraph

open Sorted

/-! ### Names of groups -/

/-- The node without the name that a group remembers. A leaf keeps its name. -/
def Node.forgetGroupName (node : Node) : Node :=
  if node.kind = .group then { node with name := "" } else node

/-- A record does not hold the name of a group. -/
theorem Node.toRecord_forgetGroupName (node : Node) :
    node.forgetGroupName.toRecord = node.toRecord := by
  rw [forgetGroupName]
  split
  · next hkind =>
    have hname : node.displayName = none := by rw [displayName, hkind]
    -- with an empty name the node is still a group
    have hname' : ({ node with name := "" } : Node).displayName = none := by
      have hkind' : ({ node with name := "" } : Node).kind = .group := hkind
      rw [displayName, hkind']
    rw [toRecord, toRecord, hname, hname']
  · rfl

/-- The graph without the names that groups remember. -/
def Model.forgetGroupNames (model : Model) : Model :=
  { model with nodeMap := model.nodeMap.mapValues fun _ node => node.forgetGroupName }

theorem Model.toRecords_forgetGroupNames (model : Model) :
    model.forgetGroupNames.toRecords = model.toRecords := by
  have hnodes : model.forgetGroupNames.nodes.map Node.toRecord = model.nodes.map Node.toRecord := by
    rw [nodes, nodes, forgetGroupNames, Map.values, Map.values, Map.mapValues, List.map_map,
      List.map_map, List.map_map]
    exact List.map_congr_left fun entry _ => Node.toRecord_forgetGroupName entry.2
  rw [toRecords, toRecords, hnodes]
  rfl

/-! ### Members of a node -/

/-- All packages of a group give it the same directory, and all of them are counted. -/
theorem Policy.forgetGroupName_nodeOf {policy : Policy} {facts : List Fact} {id : String}
    {member : Fact} (hmember : member ∈ policy.members facts id)
    (hgroup : policy.groupOf member.directory ∈ policy.grouping) :
    (policy.nodeOf id (policy.members facts id)).map Node.forgetGroupName =
      some ⟨id, "", policy.groupOf member.directory, (policy.members facts id).length⟩ := by
  have hcount := countP_isGrouped_members hmember hgroup
  have hpos := List.length_pos_of_mem hmember
  cases hmembers : policy.members facts id with
  | nil => exact absurd (hmembers ▸ hmember) List.not_mem_nil
  | cons first rest =>
    have hfirst : first ∈ policy.members facts id := hmembers ▸ List.mem_cons_self
    -- the members share a node, hence the directory that stands for them
    have hdirectory : policy.groupOf first.directory = policy.groupOf member.directory :=
      effectiveId_eq_iff.1
        ((mem_members.1 hfirst).2.2.trans (mem_members.1 hmember).2.2.symm)
    rw [hmembers] at hcount hpos
    simp only [nodeOf, List.head?_cons, Option.map_some, Node.forgetGroupName, Node.kind, hcount,
      hpos, if_true, hdirectory]

section Perm

variable {policy : Policy} {facts visited : List Fact} (hperm : visited.Perm facts)

include hperm

theorem Policy.members_perm (id : String) :
    (policy.members visited id).Perm (policy.members facts id) := hperm.filter _

/-- What one node uses of another does not depend on the order of the facts. -/
theorem Policy.dependency_perm (source destination : String) :
    policy.dependency visited source destination = policy.dependency facts source destination :=
  ((members_perm hperm source).map _).sum_eq

/-- The weights of a draft do not depend on the order of the facts. -/
theorem Draft.weights_perm : (ofFacts policy visited).weights = (ofFacts policy facts).weights := by
  refine Map.ext fun ends => ?_
  rw [get?_weights_ofFacts, get?_weights_ofFacts, Policy.dependency_perm hperm]

/-- **A node is made from its packages in any order**, but for the name of a group. -/
theorem Policy.nodeOf_perm (hnodup : (facts.map Fact.directory).Nodup) (id : String) :
    (policy.nodeOf id (policy.members visited id)).map Node.forgetGroupName =
      (policy.nodeOf id (policy.members facts id)).map Node.forgetGroupName := by
  have hmembers : (policy.members visited id).Perm (policy.members facts id) :=
    members_perm hperm id
  cases hfacts : policy.members facts id with
  | nil =>
    -- an identifier without members has no node in either order
    rw [hfacts, List.perm_nil] at hmembers
    rw [hmembers]
  | cons first rest =>
    have hfirst : first ∈ policy.members facts id := hfacts ▸ List.mem_cons_self
    rw [← hfacts]
    by_cases hgroup : policy.groupOf first.directory ∈ policy.grouping
    · -- in a group, any member tells the directory and the number of members does not change
      rw [forgetGroupName_nodeOf hfirst hgroup,
        forgetGroupName_nodeOf (hmembers.mem_iff.2 hfirst) hgroup, hmembers.length_eq]
    · -- a package that is in no group is alone
      have halone := members_eq_singleton hnodup hfirst hgroup
      rw [halone, List.perm_singleton] at hmembers
      rw [hmembers, halone]

/-! ### Whole graphs -/

/-- The graph does not depend on the order of the facts, but for the names of groups. -/
theorem Model.forgetGroupNames_perm (hnodup : (facts.map Fact.directory).Nodup) :
    (ofFacts policy visited).forgetGroupNames = (ofFacts policy facts).forgetGroupNames := by
  have hnodes : (Draft.ofFacts policy visited).nodes.mapValues (fun _ => Node.forgetGroupName) =
      (Draft.ofFacts policy facts).nodes.mapValues fun _ => Node.forgetGroupName := by
    refine Map.ext fun id => ?_
    rw [Map.get?_mapValues, Map.get?_mapValues, Draft.get?_nodes_ofFacts,
      Draft.get?_nodes_ofFacts]
    exact Policy.nodeOf_perm hperm hnodup id
  -- ranks are made from the identifiers, which forgetting names does not change
  have hkeys : (Draft.ofFacts policy visited).nodes.keys =
      (Draft.ofFacts policy facts).nodes.keys := by
    rw [← Map.keys_mapValues fun _ => Node.forgetGroupName, hnodes, Map.keys_mapValues]
  rw [forgetGroupNames, forgetGroupNames, ofFacts, ofFacts, Draft.finish, Draft.finish, hnodes,
    hkeys, Draft.weights_perm hperm]

end Perm

namespace Model

/-- **The order in which packages are visited is irrelevant.** Whatever order some facts on
different directories are visited in, the records of their graph are the same, and the graph is the
same but for the names that groups remember. Collecting them in any order gives these records,
too. -/
theorem ofFacts_perm (policy : Policy) {facts visited collected : List Fact}
    (hnodup : (facts.map Fact.directory).Nodup) (hvisited : visited.Perm facts)
    (hcollected : collected.Perm facts) :
    (ofFacts policy visited).toRecords = (ofFacts policy facts).toRecords ∧
      (ofFacts policy visited).forgetGroupNames = (ofFacts policy facts).forgetGroupNames ∧
      (build policy (.ofList collected)).toRecords = (ofFacts policy facts).toRecords := by
  have hrecords : ∀ other : List Fact, other.Perm facts →
      (ofFacts policy other).toRecords = (ofFacts policy facts).toRecords := by
    -- records do not hold what forgetting takes away
    intro other hperm
    rw [← toRecords_forgetGroupNames, forgetGroupNames_perm hperm hnodup,
      toRecords_forgetGroupNames]
  refine ⟨hrecords visited hvisited, forgetGroupNames_perm hvisited hnodup, ?_⟩
  -- facts on different directories are collected as they are, in one order or another
  have hdistinct : (collected.map Fact.directory).Nodup :=
    (hcollected.map Fact.directory).nodup_iff.2 hnodup
  exact hrecords _ ((FactSet.toList_ofList_perm hdistinct).trans hcollected)

/-- A group with a member on its own directory, which remembers the name of whichever member comes
first, and an edge to a package that has no node. -/
theorem ofFacts_perm_group :
    let policy : Policy := ⟨"mod", ["lib"], .empty, .empty⟩
    let top := (Fact.ofName "top" "lib").withUsage "mod/lib/in" ["A"]
    let inner := (Fact.ofName "inner" "lib/in").withUsage "mod/gone" ["B", "C"]
    let main := (Fact.ofName "main" "").withUsage "mod/lib/in" ["D"]
    ([top, inner, main].map Fact.directory).Nodup ∧
      [inner, main, top].Perm [top, inner, main] ∧ [main, top, inner].Perm [top, inner, main] ∧
      ofFacts policy [inner, main, top] ≠ ofFacts policy [top, inner, main] ∧
      (ofFacts policy [inner, main, top]).toRecords =
        (ofFacts policy [top, inner, main]).toRecords := by
  intro policy top inner main
  have hnodup : ([top, inner, main].map Fact.directory).Nodup := by decide +kernel
  have hvisited : [inner, main, top].Perm [top, inner, main] := by decide +kernel
  have hcollected : [main, top, inner].Perm [top, inner, main] := by decide +kernel
  exact ⟨hnodup, hvisited, hcollected, by decide +kernel,
    (ofFacts_perm policy hnodup hvisited hcollected).1⟩

end Model

end PackageGraph
