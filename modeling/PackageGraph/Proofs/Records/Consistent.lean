import PackageGraph.Proofs.Graph.Order
import PackageGraph.Proofs.Graph.Rank

/-!
# Records of a graph

The three lists of records are made from three maps, each for itself. In a graph that was built the
maps belong together, so the lists do as well (`Records.Consistent`): they are sorted, a rank names
nodes only and each node is named by one rank, and edges start at nodes.

Nothing is lost but the names that groups remember. A node is read back from its record without such
a name (`Node.ofRecord_toRecord`), edges and ranks are read back as they are. Since the maps are
keyed by what is in their values, graphs with the same records are the same but for these names
(`Model.toRecords_lossless`).
-/

namespace PackageGraph

open Sorted

/-- Records that are sorted and belong together. -/
structure Records.Consistent (records : Records) : Prop where
  /-- Nodes are in the order of their identifiers. -/
  nodes_sorted : (records.nodes.map NodeRecord.id).Pairwise fun id id' => Key.before id id' = true
  /-- Edges are in the order of their ends. -/
  edges_sorted : (records.edges.map fun edge => (edge.source, edge.destination)).Pairwise
    fun ends ends' => Key.before ends ends' = true
  /-- Ranks are in the order of their depths. -/
  ranks_sorted : (records.ranks.map RankRecord.depth).Pairwise (· < ·)
  /-- The members of a rank are in order. -/
  members_sorted : ∀ rank ∈ records.ranks,
    rank.members.Pairwise fun id id' => Key.before id id' = true
  /-- A rank names nodes. -/
  existsUnique_node : ∀ rank ∈ records.ranks, ∀ id ∈ rank.members,
    ∃! node, node ∈ records.nodes ∧ node.id = id
  /-- Each node is named by one rank. -/
  existsUnique_rank : ∀ node ∈ records.nodes,
    ∃! rank, rank ∈ records.ranks ∧ node.id ∈ rank.members
  /-- An edge starts at a node. It may lead to an identifier that has none. -/
  exists_source : ∀ edge ∈ records.edges, ∃ node ∈ records.nodes, node.id = edge.source
  /-- The groups have no name to display, and nothing else lacks one. -/
  displayName_eq_none_iff : ∀ node ∈ records.nodes,
    node.displayName = none ↔ 0 < node.containedPackages

/-! ### Reading records back -/

namespace Node

/-- The node of a record. What a group remembers as its name is not in the record. -/
def ofRecord (record : NodeRecord) : Node :=
  ⟨record.id, record.displayName.getD "", record.directory, record.containedPackages⟩

/-- **A node is read back from its record**, but for the name of a group. -/
theorem ofRecord_toRecord (node : Node) : ofRecord node.toRecord = node.forgetGroupName := by
  rw [toRecord, displayName, forgetGroupName]
  cases node.kind with
  | leaf => rfl
  | group => rfl

/-- Nodes have the same records if they are the same but for the names of groups. -/
theorem map_toRecord_eq_iff {nodes nodes' : List Node} :
    nodes.map toRecord = nodes'.map toRecord ↔
      nodes.map forgetGroupName = nodes'.map forgetGroupName := by
  constructor
  · intro h
    have hread := congrArg (List.map ofRecord) h
    simpa only [List.map_map, Function.comp_def, ofRecord_toRecord] using hread
  · intro h
    have hrecords := congrArg (List.map toRecord) h
    simpa only [List.map_map, Function.comp_def, toRecord_forgetGroupName] using hrecords

theorem forgetGroupName_id (node : Node) : node.forgetGroupName.id = node.id := by
  rw [← ofRecord_toRecord]
  rfl

/-- A node has no name to display if it is a group. -/
theorem displayName_eq_none_iff (node : Node) :
    node.displayName = none ↔ 0 < node.containedPackages := by
  unfold displayName kind
  by_cases hgroup : 0 < node.containedPackages
  · simp [hgroup]
  · simp [hgroup]

end Node

/-- Nothing of an edge is lost in its record. -/
theorem Edge.toRecord_injective : Function.Injective Edge.toRecord := by
  intro edge edge' h
  cases edge
  cases edge'
  cases h
  rfl

namespace Model

@[simp] theorem edges_forgetGroupNames (model : Model) :
    model.forgetGroupNames.edges = model.edges := rfl

@[simp] theorem ranks_forgetGroupNames (model : Model) :
    model.forgetGroupNames.ranks = model.ranks := rfl

/-- The members of a rank are listed, and read back from the list. -/
theorem rankMap_eq_of_ranks_eq {model model' : Model} (h : model.ranks = model'.ranks) :
    model.rankMap = model'.rankMap := by
  -- a rank is its depth and its members
  have hentry : Function.Injective fun entry : Nat × Sorted.Set String =>
      (entry.1, entry.2.toList) := by
    rintro ⟨depth, members⟩ ⟨depth', members'⟩ heq
    obtain ⟨rfl, hmembers⟩ := Prod.mk.inj heq
    have hset : members = members' := Sorted.Set.ext fun id => by
      rw [Set.contains_iff_mem_toList, Set.contains_iff_mem_toList, hmembers]
    rw [hset]
  have hentries : model.rankMap.entries = model'.rankMap.entries :=
    List.map_injective_iff.2 hentry h
  refine Map.ext fun depth => Option.ext fun members => ?_
  rw [Map.get?_eq_some, Map.get?_eq_some, hentries]

variable {policy policy' : Policy} {facts facts' : List Fact}

/-- **Graphs with the same records** are the same but for the names that groups remember. -/
theorem forgetGroupNames_eq_of_toRecords_eq
    (h : (ofFacts policy facts).toRecords = (ofFacts policy' facts').toRecords) :
    (ofFacts policy facts).forgetGroupNames = (ofFacts policy' facts').forgetGroupNames := by
  have hroot : policy.moduleRoot = policy'.moduleRoot := congrArg Records.moduleRoot h
  have hnodes := Node.map_toRecord_eq_iff.1 (congrArg Records.nodes h)
  have hedges := List.map_injective_iff.2 Edge.toRecord_injective (congrArg Records.edges h)
  have hranks : (ofFacts policy facts).ranks = (ofFacts policy' facts').ranks := by
    refine List.map_injective_iff.2 (fun rank rank' heq => ?_) (congrArg Records.ranks h)
    obtain ⟨hdepth, hmembers⟩ := RankRecord.mk.inj heq
    exact Prod.ext hdepth hmembers
  -- nodes are stored under their identifiers, with or without names, and edges under their ends
  have hkeyed {policy : Policy} {facts : List Fact} {id : String} {node : Node}
      (hnode : ((ofFacts policy facts).nodeMap.mapValues fun _ => Node.forgetGroupName).get? id =
        some node) : node.id = id := by
    rw [Map.get?_mapValues, Option.map_eq_some_iff] at hnode
    obtain ⟨stored, hstored, rfl⟩ := hnode
    rw [Node.forgetGroupName_id]
    exact id_of_node? hstored
  -- so either map is known from its values
  have hnodeMap : ((ofFacts policy facts).nodeMap.mapValues fun _ => Node.forgetGroupName) =
      (ofFacts policy' facts').nodeMap.mapValues fun _ => Node.forgetGroupName := by
    refine Map.eq_of_values_eq Node.id hkeyed hkeyed ?_
    rw [Map.values_mapValues, Map.values_mapValues]
    exact hnodes
  have hedgeMap : (ofFacts policy facts).edgeMap = (ofFacts policy' facts').edgeMap :=
    Map.eq_of_values_eq _ ends_of_get?_edgeMap ends_of_get?_edgeMap hedges
  unfold forgetGroupNames
  rw [hnodeMap, hedgeMap, rankMap_eq_of_ranks_eq hranks]
  exact congrArg (Model.mk · _ _ _) hroot

/-! ### Consistency -/

theorem map_id_toRecords (policy : Policy) (facts : List Fact) :
    (ofFacts policy facts).toRecords.nodes.map NodeRecord.id =
      (ofFacts policy facts).nodeMap.keys := by
  rw [← map_id_nodes]
  exact List.map_map

/-- The records of ranks are the ranks. -/
theorem mem_ranks_toRecords {model : Model} {rank : RankRecord} :
    rank ∈ model.toRecords.ranks ↔ (rank.depth, rank.members) ∈ model.ranks := by
  constructor
  · intro h
    obtain ⟨rank, hrank, rfl⟩ := List.mem_map.1 h
    exact hrank
  · exact fun h => List.mem_map.2 ⟨_, h, rfl⟩

/-- **The records of a graph are consistent.** -/
theorem consistent_ofFacts (policy : Policy) (facts : List Fact) :
    (ofFacts policy facts).toRecords.Consistent where
  nodes_sorted := by
    rw [map_id_toRecords]
    exact Map.keys_sorted _
  edges_sorted := by
    have hends : ((ofFacts policy facts).toRecords.edges.map fun edge =>
        (edge.source, edge.destination)) =
          (ofFacts policy facts).edges.map fun edge => (edge.source, edge.destination) :=
      List.map_map
    rw [hends]
    exact edges_ofFacts_sorted policy facts
  ranks_sorted := by
    rw [List.pairwise_map]
    exact List.pairwise_map.2 (ranks_ascending _)
  members_sorted rank hrank := by
    obtain ⟨entry, -, hentry⟩ := List.mem_map.1 (mem_ranks_toRecords.1 hrank)
    obtain ⟨-, hmembers⟩ := Prod.mk.inj hentry
    rw [← hmembers]
    exact Set.toList_sorted _
  existsUnique_node rank hrank id hid := by
    obtain ⟨node, hnode, rfl⟩ := ((mem_rank_iff (mem_ranks_toRecords.1 hrank)).1 hid).1
    refine ⟨node.toRecord, ⟨List.mem_map_of_mem hnode, rfl⟩, ?_⟩
    rintro other ⟨hother, hsame⟩
    -- no two nodes have one identifier
    have hnodup : ((ofFacts policy facts).toRecords.nodes.map NodeRecord.id).Nodup := by
      rw [map_id_toRecords]
      exact Map.keys_nodup _
    exact List.inj_on_of_nodup_map hnodup hother (List.mem_map_of_mem hnode) hsame
  existsUnique_rank record hrecord := by
    obtain ⟨node, hnode, rfl⟩ := List.mem_map.1 hrecord
    obtain ⟨rank, ⟨hrank, hid⟩, hunique⟩ := existsUnique_rank_ofFacts hnode
    refine ⟨⟨rank.1, rank.2⟩, ⟨mem_ranks_toRecords.2 hrank, hid⟩, ?_⟩
    rintro other ⟨hother, hid'⟩
    rw [← hunique _ ⟨mem_ranks_toRecords.1 hother, hid'⟩]
  exists_source record hrecord := by
    obtain ⟨edge, hedge, rfl⟩ := List.mem_map.1 hrecord
    have hsound := (Sound.finish (Draft.Sound.ofFacts policy facts)).edges _ _ edge
      (mem_edges_ofFacts.1 hedge)
    obtain ⟨node, hnode, hid⟩ := hsound.source_mem
    exact ⟨node.toRecord, List.mem_map_of_mem (Map.mem_values.2 ⟨_, hnode⟩), hid⟩
  displayName_eq_none_iff record hrecord := by
    obtain ⟨node, -, rfl⟩ := List.mem_map.1 hrecord
    exact node.displayName_eq_none_iff

/-- **Records are sorted, consistent and lossless.** The records of a graph have the current version
and the root of the module. Nodes, edges, ranks and the members of a rank stand in strictly
increasing order; every member of a rank is the identifier of one node, every node is in one rank,
every edge starts at a node, and just the groups have no name to display. Two graphs, of any facts
under any policies, have the same records exactly if they are the same but for the names that groups
remember: then their edges and ranks are equal, and so are their nodes but for these names. -/
theorem toRecords_lossless (policy : Policy) (facts : FactSet) :
    (build policy facts).toRecords.version = Records.currentVersion ∧
    (build policy facts).toRecords.moduleRoot = policy.moduleRoot ∧
    (build policy facts).toRecords.Consistent ∧
    ∀ (policy' : Policy) (facts' : FactSet),
      ((build policy facts).toRecords = (build policy' facts').toRecords ↔
        (build policy facts).forgetGroupNames = (build policy' facts').forgetGroupNames) ∧
      ((build policy facts).toRecords = (build policy' facts').toRecords →
        (build policy facts).edges = (build policy' facts').edges ∧
        (build policy facts).ranks = (build policy' facts').ranks ∧
        (build policy facts).nodes.map Node.forgetGroupName =
          (build policy' facts').nodes.map Node.forgetGroupName) := by
  refine ⟨rfl, rfl, consistent_ofFacts policy facts.toList, fun policy' facts' => ⟨⟨?_, ?_⟩, ?_⟩⟩
  · exact forgetGroupNames_eq_of_toRecords_eq
  · -- the records do not have the names that groups remember
    intro h
    rw [← toRecords_forgetGroupNames, h, toRecords_forgetGroupNames]
  · -- edges and ranks are not touched by forgetting these names
    intro h
    have hsame : (build policy facts).forgetGroupNames = (build policy' facts').forgetGroupNames :=
      forgetGroupNames_eq_of_toRecords_eq h
    refine ⟨?_, ?_, Node.map_toRecord_eq_iff.1 (congrArg Records.nodes h)⟩
    · rw [← edges_forgetGroupNames, hsame, edges_forgetGroupNames]
    · rw [← ranks_forgetGroupNames, hsame, ranks_forgetGroupNames]

/-- Two graphs whose groups remember different names, with the same records. -/
theorem toRecords_lossless_renamed :
    let policy : Policy := ⟨"mod", ["lib"], .empty, .empty⟩
    let facts := FactSet.ofList
      [(Fact.ofName "a" "lib/a").withUsage "mod/cmd" ["Run"], Fact.ofName "b" "lib/b"]
    let facts' := FactSet.ofList
      [(Fact.ofName "other" "lib/a").withUsage "mod/cmd" ["Main"], Fact.ofName "c" "lib/c"]
    (build policy facts).nodes ≠ (build policy facts').nodes ∧
      (build policy facts).toRecords = (build policy facts').toRecords ∧
      (build policy facts).nodes.map Node.forgetGroupName =
        (build policy facts').nodes.map Node.forgetGroupName := by
  intro policy facts facts'
  have hrecords : (build policy facts).toRecords = (build policy facts').toRecords := by
    decide +kernel
  exact ⟨by decide +kernel, hrecords,
    (((toRecords_lossless policy facts).2.2.2 policy facts').2 hrecords).2.2⟩

end Model

end PackageGraph
