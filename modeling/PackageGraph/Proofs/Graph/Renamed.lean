import PackageGraph.Proofs.Graph.Rank
import PackageGraph.Proofs.Path.Renamed
import PackageGraph.Proofs.Sorted.Renamed

/-!
# Renaming the module

The graph of a module is the same under another name of the module, but for the identifiers in it,
which are renamed (`Model.toRecords_build_rename`). The root of the module enters everywhere: nodes
are qualified by it, imports are cut at it, exclusions and forbidden relations are looked up under
it, depths are counted from it, and all lists are in the order of identifiers that begin with it.

The records are compared through the facts, not through the steps of the builder. A renamed policy
gives renamed answers (`Policy.isExcluded_rename`, `Policy.effectiveId_rename`), so the packages of
a renamed node are those of the node (`Policy.members_rename`), and one renamed node uses another
as before (`Policy.dependency_rename`). All identifiers of a graph are in its module, where
renaming keeps the order, so that no list of the records is rearranged.
-/

namespace PackageGraph

open Sorted

/-! ### Renamed policies and facts -/

/-- The same rules for the module under another root. -/
def Policy.rename (root' : String) (policy : Policy) : Policy where
  moduleRoot := root'
  grouping := policy.grouping
  excluded := policy.excluded.map (Path.rename policy.moduleRoot root')
  forbidden := (policy.forbidden.mapValues fun _ targets =>
    targets.map (Path.rename policy.moduleRoot root')).mapKeys (Path.rename policy.moduleRoot root')

/-- The fact with its import paths renamed. -/
def Fact.rename (root root' : String) (fact : Fact) : Fact :=
  { fact with usage := fact.usage.mapKeys (Path.rename root root') }

namespace FactSet

/-- The facts with their import paths renamed. Directories are relative to the root and stay. -/
def rename (root root' : String) (facts : FactSet) : FactSet where
  byDirectory := facts.byDirectory.mapValues fun _ fact => fact.rename root root'
  keyed {directory renamed} h := by
    rw [Map.get?_mapValues, Option.map_eq_some_iff] at h
    obtain ⟨fact, hfact, rfl⟩ := h
    have hdirectory : fact.directory = directory := facts.keyed hfact
    exact hdirectory

/-- Renamed facts are listed in the same order, since their directories stay. -/
theorem toList_rename (root root' : String) (facts : FactSet) :
    (facts.rename root root').toList = facts.toList.map (Fact.rename root root') := by
  simp only [toList, rename, Map.values, Map.mapValues, List.map_map]
  rfl

end FactSet

/-- What a policy and facts name is in the module, or it is neither in the module nor in the one
that is to have the new root. -/
structure Policy.Renamable (policy : Policy) (root' : String) (facts : List Fact) : Prop where
  /-- So it is for the imports of the packages. -/
  imports : ∀ fact ∈ facts, ∀ path ∈ fact.usage.keys, Path.Placed policy.moduleRoot root' path
  /-- So it is for the packages that are excluded. -/
  excluded : ∀ id ∈ policy.excluded.toList, Path.Placed policy.moduleRoot root' id
  /-- So it is for the sources and the targets of the forbidden relations. -/
  forbidden : ∀ rule ∈ policy.forbidden.entries, Path.Placed policy.moduleRoot root' rule.1 ∧
    ∀ target ∈ rule.2.toList, Path.Placed policy.moduleRoot root' target

namespace Policy

@[simp] theorem moduleRoot_rename (root' : String) (policy : Policy) :
    (policy.rename root').moduleRoot = root' := rfl

@[simp] theorem groupOf_rename (root' : String) (policy : Policy) (directory : String) :
    (policy.rename root').groupOf directory = policy.groupOf directory := rfl

@[simp] theorem isGrouped_rename (root' : String) (policy : Policy) (directory : String) :
    (policy.rename root').isGrouped directory = policy.isGrouped directory := rfl

/-- **The node of a directory is renamed.** -/
theorem effectiveId_rename (root' : String) (policy : Policy) (directory : String) :
    (policy.rename root').effectiveId directory =
      Path.rename policy.moduleRoot root' (policy.effectiveId directory) := by
  rw [effectiveId, effectiveId, Path.rename_qualify]
  rfl

/-- All effective identifiers are in the module. -/
theorem inModule_effectiveId (policy : Policy) (directory : String) :
    Path.InModule policy.moduleRoot (policy.effectiveId directory) :=
  Path.inModule_qualify _ _

/-- Renamed nodes are the same only if the nodes are. -/
theorem effectiveId_rename_eq_iff {policy : Policy} {root' id : String}
    (hid : Path.InModule policy.moduleRoot id) (directory : String) :
    (policy.rename root').effectiveId directory = Path.rename policy.moduleRoot root' id ↔
      policy.effectiveId directory = id := by
  rw [effectiveId_rename]
  exact ⟨Path.rename_injOn (.inl (inModule_effectiveId _ _)) (.inl hid), congrArg _⟩

section Answers

variable {policy : Policy} {root' : String} {facts : List Fact} {id source destination : String}
  (h : policy.Renamable root' facts)

include h

/-- **What is excluded stays excluded** under its new name. -/
theorem isExcluded_rename (hid : Path.InModule policy.moduleRoot id) :
    (policy.rename root').isExcluded (Path.rename policy.moduleRoot root' id) =
      policy.isExcluded id :=
  Set.contains_map_self fun other hother => Path.rename_injOn (h.excluded other hother) (.inl hid)

/-- **What is forbidden stays forbidden** between the new names. -/
theorem isForbidden_rename (hsource : Path.InModule policy.moduleRoot source)
    (hdestination : Path.InModule policy.moduleRoot destination) :
    (policy.rename root').isForbidden (Path.rename policy.moduleRoot root' source)
        (Path.rename policy.moduleRoot root' destination) =
      policy.isForbidden source destination := by
  -- renaming takes no two sources together, nor two targets, as each of them is placed
  have hplaced : ∀ key ∈ policy.forbidden.keys, Path.Placed policy.moduleRoot root' key := by
    intro key hkey
    obtain ⟨rule, hrule, rfl⟩ := List.mem_map.1 hkey
    exact (h.forbidden rule hrule).1
  rw [isForbidden, isForbidden, rename, Map.get?_mapKeys]
  · rw [Map.get?_mapValues]
    cases htargets : policy.forbidden.get? source with
    | none => rfl
    | some targets =>
      have hrule := h.forbidden (source, targets) (Map.get?_eq_some.1 htargets)
      exact Set.contains_map_self fun other hother =>
        Path.rename_injOn (hrule.2 other hother) (.inl hdestination)
  · rw [Map.keys_mapValues]
    exact fun key hkey key' hkey' => Path.rename_injOn (hplaced key hkey) (hplaced key' hkey')
  · rw [Map.keys_mapValues]
    exact fun key hkey => Path.rename_injOn (hplaced key hkey) (.inl hsource)

theorem omits_rename (fact : Fact) :
    Draft.omits (policy.rename root') (fact.rename policy.moduleRoot root') =
      Draft.omits policy fact := by
  rw [Draft.omits, Draft.omits, moduleRoot_rename, ← Path.rename_qualify policy.moduleRoot,
    isExcluded_rename h (Path.inModule_qualify _ _)]
  rfl

/-! ### Members and dependencies -/

/-- **The packages of a renamed node** are those of the node. -/
theorem members_rename (hid : Path.InModule policy.moduleRoot id) :
    (policy.rename root').members (facts.map (Fact.rename policy.moduleRoot root'))
        (Path.rename policy.moduleRoot root' id) =
      (policy.members facts id).map (Fact.rename policy.moduleRoot root') := by
  rw [members, members, List.filter_map]
  congr 1
  refine List.filter_congr fun fact _ => ?_
  -- two conditions choose a member: it is not omitted, and it has the identifier
  have homits := omits_rename h fact
  rw [Draft.omits, Draft.omits] at homits
  rw [Function.comp_apply, homits]
  exact congrArg _ (decide_eq_decide.2 (effectiveId_rename_eq_iff hid fact.directory))

/-- A renamed import leads to a renamed node if the import leads to the node. -/
theorem leadsTo_rename (hid : Path.InModule policy.moduleRoot id) {path : String}
    (hpath : Path.Placed policy.moduleRoot root' path) :
    (policy.rename root').leadsTo (Path.rename policy.moduleRoot root' id)
        (Path.rename policy.moduleRoot root' path) =
      policy.leadsTo id path := by
  rw [leadsTo, leadsTo, moduleRoot_rename, Path.relativeTo?_rename hpath]
  cases Path.relativeTo? policy.moduleRoot path with
  | none => rfl
  | some relative =>
    dsimp only
    rw [← Path.rename_qualify policy.moduleRoot root', isExcluded_rename h
      (Path.inModule_qualify _ _), decide_eq_decide.2 (effectiveId_rename_eq_iff hid _)]

/-- A renamed fact uses as many symbols of a renamed node. -/
theorem symbolsUsed_rename (hid : Path.InModule policy.moduleRoot id) {fact : Fact}
    (hfact : fact ∈ facts) :
    (policy.rename root').symbolsUsed (fact.rename policy.moduleRoot root')
        (Path.rename policy.moduleRoot root' id) =
      policy.symbolsUsed fact id := by
  have hplaced := h.imports fact hfact
  -- the import paths may be in another order now, which a sum does not depend on
  have hperm : (fact.rename policy.moduleRoot root').usage.entries.Perm
      (fact.usage.entries.map fun entry =>
        (Path.rename policy.moduleRoot root' entry.1, entry.2)) :=
    Map.entries_mapKeys_perm fun path hpath path' hpath' =>
      Path.rename_injOn (hplaced path hpath) (hplaced path' hpath')
  rw [symbolsUsed, symbolsUsed, ((hperm.filter _).map _).sum_eq, List.filter_map, List.map_map]
  congr 2
  refine List.filter_congr fun entry hentry => ?_
  exact leadsTo_rename h hid (hplaced entry.1 (List.mem_map_of_mem hentry))

/-- **Renamed nodes use each other as before.** -/
theorem dependency_rename (hsource : Path.InModule policy.moduleRoot source)
    (hdestination : Path.InModule policy.moduleRoot destination) :
    (policy.rename root').dependency (facts.map (Fact.rename policy.moduleRoot root'))
        (Path.rename policy.moduleRoot root' source)
        (Path.rename policy.moduleRoot root' destination) =
      policy.dependency facts source destination := by
  rw [dependency, dependency, members_rename h hsource, List.map_map]
  refine congrArg List.sum (List.map_congr_left fun fact hfact => ?_)
  exact symbolsUsed_rename h hdestination (mem_members.1 hfact).1

end Answers

end Policy

/-! ### Renamed graphs -/

/-- The node under the new name. -/
def Node.rename (root root' : String) (node : Node) : Node :=
  { node with id := Path.rename root root' node.id }

/-- The edge between the new names. -/
def Edge.rename (root root' : String) (edge : Edge) : Edge :=
  { edge with
    source := Path.rename root root' edge.source
    destination := Path.rename root root' edge.destination }

/-- The records of the module under another root: every identifier is renamed, and nothing else
changes. -/
def Records.rename (root' : String) (records : Records) : Records where
  version := records.version
  moduleRoot := root'
  nodes := records.nodes.map fun node =>
    { node with id := Path.rename records.moduleRoot root' node.id }
  edges := records.edges.map fun edge =>
    { edge with
      source := Path.rename records.moduleRoot root' edge.source
      destination := Path.rename records.moduleRoot root' edge.destination }
  ranks := records.ranks.map fun rank =>
    { rank with members := rank.members.map (Path.rename records.moduleRoot root') }

namespace Draft

/-- **The ranks of renamed identifiers** are the ranks with their members renamed. -/
theorem ranksOf_rename {root : String} {ids : List String}
    (hids : ∀ id ∈ ids, Path.InModule root id) (root' : String) :
    ranksOf root' (ids.map (Path.rename root root')) =
      (ranksOf root ids).mapValues fun _ members => members.map (Path.rename root root') := by
  refine Map.ext fun depth => ?_
  -- the identifiers of a depth are renamed, as their depth is what it was
  have hdepth : ((ids.map (Path.rename root root')).filter fun id => Path.depth root' id = depth) =
      (ids.filter fun id => Path.depth root id = depth).map (Path.rename root root') := by
    rw [List.filter_map]
    congr 1
    refine List.filter_congr fun id hid => ?_
    rw [Function.comp_apply, Path.depth_rename (hids id hid)]
  rw [Map.get?_mapValues, get?_ranksOf, get?_ranksOf, hdepth, Set.ofList_map]
  simp only [List.map_eq_nil_iff]
  split <;> rfl

end Draft

namespace Model

/-! ### Nodes, edges and ranks -/

theorem inModule_of_node? {policy : Policy} {facts : List Fact} {id : String} {node : Node}
    (h : (ofFacts policy facts).node? id = some node) : Path.InModule policy.moduleRoot id := by
  have hsound := (Sound.finish (Draft.Sound.ofFacts policy facts)).nodes id node h
  rw [hsound.id_eq_qualify]
  exact Path.inModule_qualify _ _

theorem inModule_of_edge? {policy : Policy} {facts : List Fact} {source destination : String}
    {edge : Edge} (h : (ofFacts policy facts).edge? source destination = some edge) :
    Path.InModule policy.moduleRoot source ∧ Path.InModule policy.moduleRoot destination := by
  have hsound := (Sound.finish (Draft.Sound.ofFacts policy facts)).edges source destination edge h
  obtain ⟨node, hnode, -⟩ := hsound.source_mem
  exact ⟨inModule_of_node? hnode, hsound.destination_mem⟩

section Parts

variable {policy : Policy} {root' : String} {facts : List Fact} {id source destination : String}
  (h : policy.Renamable root' facts)

include h

/-- **The node under a new name** is the renamed node. -/
theorem node?_rename (hid : Path.InModule policy.moduleRoot id) :
    (ofFacts (policy.rename root') (facts.map (Fact.rename policy.moduleRoot root'))).node?
        (Path.rename policy.moduleRoot root' id) =
      ((ofFacts policy facts).node? id).map (Node.rename policy.moduleRoot root') := by
  rw [node?_ofFacts, node?_ofFacts, Policy.members_rename h hid, Policy.nodeOf, Policy.nodeOf,
    List.head?_map, Option.map_map, Option.map_map, List.countP_map]
  rfl

/-- **The edge between new names** is the renamed edge. -/
theorem edge?_rename (hsource : Path.InModule policy.moduleRoot source)
    (hdestination : Path.InModule policy.moduleRoot destination) :
    (ofFacts (policy.rename root') (facts.map (Fact.rename policy.moduleRoot root'))).edge?
        (Path.rename policy.moduleRoot root' source)
        (Path.rename policy.moduleRoot root' destination) =
      ((ofFacts policy facts).edge? source destination).map
        (Edge.rename policy.moduleRoot root') := by
  -- a loop stays a loop, and nothing becomes one
  have hne : Path.rename policy.moduleRoot root' source ≠
      Path.rename policy.moduleRoot root' destination ↔ source ≠ destination :=
    not_congr ⟨Path.rename_injOn (.inl hsource) (.inl hdestination), congrArg _⟩
  rw [edge?_ofFacts, edge?_ofFacts, Policy.dependency_rename h hsource hdestination,
    Policy.isForbidden_rename h hsource hdestination]
  simp only [hne]
  split <;> rfl

/-- **The nodes keep their places.** -/
theorem nodeMap_rename :
    (ofFacts (policy.rename root')
        (facts.map (Fact.rename policy.moduleRoot root'))).nodeMap.entries =
      (ofFacts policy facts).nodeMap.entries.map fun entry =>
        (Path.rename policy.moduleRoot root' entry.1,
          Node.rename policy.moduleRoot root' entry.2) := by
  refine Map.entries_eq_map (Path.InModule policy.moduleRoot) ?_ ?_ ?_ ?_
  · -- the order within the module is kept
    intro id id' hid hid' hbefore
    rw [Path.before_rename hid hid']
    exact hbefore
  · -- all nodes are in the module
    intro id hid
    obtain ⟨node, hnode⟩ := Map.mem_keys.1 hid
    exact inModule_of_node? hnode
  · -- every node of the other graph is that of a renamed identifier
    intro id' hid'
    obtain ⟨node, hnode⟩ := Map.mem_keys.1 hid'
    exact Path.exists_rename_eq policy.moduleRoot (inModule_of_node? hnode)
  · exact fun id hid => node?_rename h hid

/-- **The edges keep their places.** -/
theorem edgeMap_rename :
    (ofFacts (policy.rename root')
        (facts.map (Fact.rename policy.moduleRoot root'))).edgeMap.entries =
      (ofFacts policy facts).edgeMap.entries.map fun entry =>
        (Prod.map (Path.rename policy.moduleRoot root') (Path.rename policy.moduleRoot root')
          entry.1, Edge.rename policy.moduleRoot root' entry.2) := by
  refine Map.entries_eq_map (fun ends => Path.InModule policy.moduleRoot ends.1 ∧
    Path.InModule policy.moduleRoot ends.2) ?_ ?_ ?_ ?_
  · -- pairs are compared by their parts, whose order is kept
    rintro ⟨source, destination⟩ ⟨source', destination'⟩ ⟨hs, hd⟩ ⟨hs', hd'⟩ hbefore
    change (Key.before (Path.rename _ root' source) (Path.rename _ root' source') ||
      (!Key.before (Path.rename _ root' source') (Path.rename _ root' source) &&
        Key.before (Path.rename _ root' destination) (Path.rename _ root' destination'))) = true
    rw [Path.before_rename hs hs', Path.before_rename hs' hs, Path.before_rename hd hd']
    exact hbefore
  · -- both ends of an edge are in the module
    rintro ⟨source, destination⟩ hends
    obtain ⟨edge, hedge⟩ := Map.mem_keys.1 hends
    exact inModule_of_edge? hedge
  · -- every edge of the other graph is one between renamed ends
    rintro ⟨source', destination'⟩ hends
    obtain ⟨edge, hedge⟩ := Map.mem_keys.1 hends
    obtain ⟨source, hs, rfl⟩ := Path.exists_rename_eq policy.moduleRoot
      (inModule_of_edge? hedge).1
    obtain ⟨destination, hd, rfl⟩ := Path.exists_rename_eq policy.moduleRoot
      (inModule_of_edge? hedge).2
    exact ⟨(source, destination), ⟨hs, hd⟩, rfl⟩
  · exact fun ends hends => edge?_rename h hends.1 hends.2

/-- **The ranks keep their places**, and so do their members. -/
theorem ranks_rename :
    (ofFacts (policy.rename root') (facts.map (Fact.rename policy.moduleRoot root'))).ranks =
      (ofFacts policy facts).ranks.map fun rank =>
        (rank.1, rank.2.map (Path.rename policy.moduleRoot root')) := by
  set ids := (ofFacts policy facts).nodeMap.keys with hids
  have hmodule : ∀ id ∈ ids, Path.InModule policy.moduleRoot id := by
    intro id hid
    obtain ⟨node, hnode⟩ := Map.mem_keys.1 hid
    exact inModule_of_node? hnode
  -- the identifiers of the graph are renamed in their order, so their ranks are
  have hkeys : (ofFacts (policy.rename root')
      (facts.map (Fact.rename policy.moduleRoot root'))).nodeMap.keys =
        ids.map (Path.rename policy.moduleRoot root') := by
    rw [hids, Map.keys, Map.keys, nodeMap_rename h, List.map_map, List.map_map]
    rfl
  have hrankMap : (ofFacts (policy.rename root')
      (facts.map (Fact.rename policy.moduleRoot root'))).rankMap =
        (ofFacts policy facts).rankMap.mapValues fun _ members =>
          members.map (Path.rename policy.moduleRoot root') := by
    rw [rankMap_ofFacts, rankMap_ofFacts, hkeys, Policy.moduleRoot_rename,
      Draft.ranksOf_rename hmodule]
  rw [ranks, ranks, hrankMap, Map.mapValues, List.map_map, List.map_map]
  refine List.map_congr_left fun rank hrank => ?_
  have hmembers : ∀ id ∈ rank.2.toList, Path.InModule policy.moduleRoot id :=
    fun id hid => hmodule id (Draft.mem_of_mem_ranksOf hrank hid)
  -- within a rank, renaming keeps the order as well
  have htoList : (rank.2.map (Path.rename policy.moduleRoot root')).toList =
      rank.2.toList.map (Path.rename policy.moduleRoot root') := by
    refine Set.toList_map fun id hid id' hid' hbefore => ?_
    rw [Path.before_rename (hmembers id hid) (hmembers id' hid')]
    exact hbefore
  exact congrArg (Prod.mk rank.1) htoList

end Parts

/-! ### Records -/

/-- **Renaming a module only renames its identifiers.** Build the graph of the same packages for
the module under any other root, with all that the policy and the imports name renamed along. Its
records are the records of the graph with every identifier renamed: the lists are in the same
order, and names, directories, counts, weights, marks and depths are what they were. Whatever is
named has to be in the module, or in neither the module nor the one under the new root. -/
theorem toRecords_build_rename {policy : Policy} {root' : String} {facts : FactSet}
    (h : policy.Renamable root' facts.toList) :
    (build (policy.rename root') (facts.rename policy.moduleRoot root')).toRecords =
      (build policy facts).toRecords.rename root' := by
  have hnodes : (build (policy.rename root') (facts.rename policy.moduleRoot root')).nodes =
      (build policy facts).nodes.map (Node.rename policy.moduleRoot root') := by
    rw [build, build, FactSet.toList_rename, nodes, Map.values, nodeMap_rename h, nodes,
      Map.values, List.map_map, List.map_map]
    rfl
  have hedges : (build (policy.rename root') (facts.rename policy.moduleRoot root')).edges =
      (build policy facts).edges.map (Edge.rename policy.moduleRoot root') := by
    rw [build, build, FactSet.toList_rename, edges, Map.values, edgeMap_rename h, edges,
      Map.values, List.map_map, List.map_map]
    rfl
  have hranks : (build (policy.rename root') (facts.rename policy.moduleRoot root')).ranks =
      (build policy facts).ranks.map fun rank =>
        (rank.1, rank.2.map (Path.rename policy.moduleRoot root')) := by
    rw [build, build, FactSet.toList_rename, ranks_rename h]
  simp only [toRecords, Records.rename, hnodes, hedges, hranks, List.map_map]
  rfl

/-- A module whose root has two slashes becomes one whose root has none. The policy groups, excludes
and forbids; one import goes to another module, and one to a path that only looks like one of the
module. -/
theorem toRecords_build_rename_short :
    let policy : Policy := ⟨"corp/team/mod", ["lib"], .ofList ["corp/team/mod/old", "fmt"],
      Map.insert .empty "corp/team/mod/cmd" (.ofList ["corp/team/mod/lib", "net"])⟩
    let facts := FactSet.ofList
      [((Fact.ofName "main" "cmd").withUsage "corp/team/mod/lib/a" ["A", "B"]).withUsage
          "corp/team/mod" ["C"],
        (Fact.ofName "a" "lib/a").withUsage "fmt" ["P"],
        (Fact.ofName "b" "lib/b").withUsage "corp/team/modern" ["Q"],
        (Fact.ofName "mod" "").withUsage "corp/team/mod/old" ["R"], Fact.ofName "old" "old"]
    policy.Renamable "m" facts.toList ∧
      (build (policy.rename "m") (facts.rename "corp/team/mod" "m")).toRecords =
        (build policy facts).toRecords.rename "m" := by
  intro policy facts
  have hrenamable : policy.Renamable "m" facts.toList :=
    ⟨by decide +kernel, by decide +kernel, by decide +kernel⟩
  exact ⟨hrenamable, toRecords_build_rename hrenamable⟩

end Model

end PackageGraph
