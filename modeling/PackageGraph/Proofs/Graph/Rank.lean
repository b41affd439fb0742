import PackageGraph.Proofs.Graph.Run
import PackageGraph.Proofs.Path.Normal
import PackageGraph.Proofs.Policy.Grouping

/-!
# Ranks

The ranks of a graph sort its nodes by depth: there is a rank for each depth that occurs, and its
members are the nodes of this depth (`Model.mem_ranks_ofFacts`). So every node is in exactly one
rank, and nothing else is in any.

Depth is a difference of numbers of slashes. For a node it is the number of parts of its directory,
whatever slashes the root of the module has (`Path.depth_qualify`).
-/

namespace PackageGraph

open Sorted

namespace Draft

/-- **The members of a rank** are the identifiers of its depth; a rank without any is absent. -/
theorem get?_ranksOf (root : String) (ids : List String) (depth : Nat) :
    (ranksOf root ids).get? depth =
      if (ids.filter fun id => Path.depth root id = depth) = [] then none
      else some (.ofList (ids.filter fun id => Path.depth root id = depth)) := by
  -- the members of a rank are inserted one after the other; the first of them makes the rank
  have hfold : ∀ (members : List String) (known : Option (Sorted.Set String)),
      members.foldl (fun known id => some ((known.getD .empty).insert id)) known =
        if members = [] then known else some ((known.getD .empty).insertAll members) := by
    intro members
    induction members with
    | nil => exact fun _ => rfl
    | cons id members ih =>
      intro known
      rw [List.foldl_cons, ih, if_neg (List.cons_ne_nil id members)]
      by_cases hnil : members = []
      · subst hnil; rfl
      · rw [if_neg hnil]; rfl
  rw [ranksOf, Map.get?_foldl_upsert, hfold, Map.get?_empty]
  rfl

theorem mem_of_mem_ranksOf {root id : String} {ids : List String}
    {rank : Nat × Sorted.Set String} (hrank : rank ∈ (ranksOf root ids).entries)
    (hid : id ∈ rank.2.toList) : id ∈ ids := by
  have hget : (ranksOf root ids).get? rank.1 = some rank.2 := Map.get?_eq_some.2 hrank
  rw [get?_ranksOf] at hget
  split at hget
  · cases hget
  · rw [← Option.some.inj hget, ← Set.contains_iff_mem_toList, Set.contains_ofList] at hid
    exact List.mem_of_mem_filter hid

end Draft

namespace Model

/-- The ranks of a graph are made from its identifiers. -/
theorem rankMap_ofFacts (policy : Policy) (facts : List Fact) :
    (ofFacts policy facts).rankMap =
      Draft.ranksOf policy.moduleRoot (ofFacts policy facts).nodeMap.keys := rfl

/-- What ranks are: they sort the nodes of a graph by the depth of their directories. -/
structure Ranked (model : Model) : Prop where
  /-- No rank is empty. -/
  ne_nil : ∀ rank ∈ model.ranks, rank.2 ≠ []
  /-- The least depth comes first, and none comes twice. -/
  ascending : model.ranks.Pairwise fun rank rank' => rank.1 < rank'.1
  /-- Every node is in exactly one rank. -/
  existsUnique_rank : ∀ node ∈ model.nodes, ∃! rank, rank ∈ model.ranks ∧ node.id ∈ rank.2
  /-- Nothing else is in a rank. -/
  exists_node : ∀ rank ∈ model.ranks, ∀ id ∈ rank.2, ∃ node ∈ model.nodes, node.id = id
  /-- The ranks have as many members as there are nodes. -/
  sum_length : (model.ranks.map fun rank => rank.2.length).sum = model.nodes.length
  /-- A node is in the rank of the number of parts of its directory. Its identifier has that many
  slashes more than the root of the module. -/
  depth_eq : ∀ rank ∈ model.ranks, ∀ node ∈ model.nodes, node.id ∈ rank.2 →
    rank.1 = (Path.parts node.directory).length ∧
      Path.slashes node.id = Path.slashes model.moduleRoot + rank.1
  /-- No part of a node's directory is empty or `.`. -/
  isStep : ∀ node ∈ model.nodes, ∀ part ∈ Path.parts node.directory, Path.isStep part = true

/-! ### Ranks as fibers -/

/-- The identifiers of the nodes of a depth, in order. -/
def idsAt (model : Model) (depth : Nat) : List String :=
  model.nodeMap.keys.filter fun id => Path.depth model.moduleRoot id = depth

variable {policy : Policy} {facts : List Fact} {rank : Nat × List String} {id : String}

/-- The rank of a depth, if there is a node of this depth. -/
theorem get?_rankMap_ofFacts (policy : Policy) (facts : List Fact) (depth : Nat) :
    (ofFacts policy facts).rankMap.get? depth =
      if (ofFacts policy facts).idsAt depth = [] then none
      else some (.ofList ((ofFacts policy facts).idsAt depth)) :=
  Draft.get?_ranksOf policy.moduleRoot _ depth

/-- **The ranks of a graph** are the depths that occur, each with the identifiers of its nodes. -/
theorem mem_ranks_ofFacts :
    rank ∈ (ofFacts policy facts).ranks ↔
      rank.2 ≠ [] ∧ rank.2 = (ofFacts policy facts).idsAt rank.1 := by
  obtain ⟨depth, members⟩ := rank
  have hget := get?_rankMap_ofFacts policy facts depth
  -- the identifiers are in order already
  have hsorted : (Set.ofList ((ofFacts policy facts).idsAt depth)).toList =
      (ofFacts policy facts).idsAt depth :=
    Set.toList_ofList ((Map.keys_sorted _).filter _)
  unfold ranks
  rw [List.mem_map]
  constructor
  · -- an entry of the ranks is that of its depth
    rintro ⟨⟨depth', members'⟩, hentry, hrank⟩
    obtain ⟨rfl, rfl⟩ := Prod.mk.inj hrank
    rw [Map.get?_eq_some.2 hentry] at hget
    split at hget
    · cases hget
    · next hne =>
      rw [Option.some.inj hget, hsorted]
      exact ⟨hne, rfl⟩
  · -- a depth that occurs has an entry
    rintro ⟨hne, hmembers⟩
    change members = (ofFacts policy facts).idsAt depth at hmembers
    subst hmembers
    rw [if_neg hne] at hget
    exact ⟨_, Map.get?_eq_some.1 hget, Prod.ext rfl hsorted⟩

/-- The identifiers at a depth are those of the nodes that have it. -/
theorem mem_idsAt {depth : Nat} :
    id ∈ (ofFacts policy facts).idsAt depth ↔
      (∃ node ∈ (ofFacts policy facts).nodes, node.id = id) ∧
        Path.depth policy.moduleRoot id = depth := by
  unfold idsAt
  rw [List.mem_filter, ← map_id_nodes, List.mem_map, decide_eq_true_eq]
  rfl

/-- A rank holds the nodes of its depth. -/
theorem mem_rank_iff (hrank : rank ∈ (ofFacts policy facts).ranks) :
    id ∈ rank.2 ↔ (∃ node ∈ (ofFacts policy facts).nodes, node.id = id) ∧
      Path.depth policy.moduleRoot id = rank.1 := by
  rw [(mem_ranks_ofFacts.1 hrank).2, mem_idsAt]

/-- The depths of the ranks are the keys that they are kept under. -/
theorem map_fst_ranks (model : Model) : model.ranks.map Prod.fst = model.rankMap.keys := by
  unfold ranks Map.keys
  rw [List.map_map]
  rfl

theorem ranks_ascending (model : Model) :
    model.ranks.Pairwise fun rank rank' => rank.1 < rank'.1 := by
  have hsorted := model.rankMap.keys_sorted
  rw [← map_fst_ranks, List.pairwise_map] at hsorted
  exact hsorted.imp fun hbefore => of_decide_eq_true hbefore

/-- Every node is in exactly one rank. -/
theorem existsUnique_rank_ofFacts {node : Node} (hnode : node ∈ (ofFacts policy facts).nodes) :
    ∃! rank, rank ∈ (ofFacts policy facts).ranks ∧ node.id ∈ rank.2 := by
  set depth := Path.depth policy.moduleRoot node.id with hdepth
  have hmem : node.id ∈ (ofFacts policy facts).idsAt depth := mem_idsAt.2 ⟨⟨node, hnode, rfl⟩, rfl⟩
  refine ⟨(depth, (ofFacts policy facts).idsAt depth), ?_, ?_⟩
  · exact ⟨mem_ranks_ofFacts.2 ⟨List.ne_nil_of_mem hmem, rfl⟩, hmem⟩
  · rintro rank ⟨hrank, hid⟩
    -- the depth of the node leaves no choice
    have hsame : depth = rank.1 := ((mem_rank_iff hrank).1 hid).2
    rw [hsame]
    exact Prod.ext rfl (mem_ranks_ofFacts.1 hrank).2

/-- **The ranks have as many members as there are nodes.** -/
theorem sum_length_ranks (policy : Policy) (facts : List Fact) :
    ((ofFacts policy facts).ranks.map fun rank => rank.2.length).sum =
      (ofFacts policy facts).nodes.length := by
  -- ranks are the fibers of the depth
  have hfibers : ((ofFacts policy facts).ranks.map fun rank => rank.2.length) =
      (ofFacts policy facts).rankMap.keys.map fun depth =>
        ((ofFacts policy facts).nodeMap.keys.filter fun id =>
          Path.depth policy.moduleRoot id = depth).length := by
    rw [← map_fst_ranks, List.map_map]
    refine List.map_congr_left fun rank hrank => ?_
    rw [(mem_ranks_ofFacts.1 hrank).2]
    rfl
  have hlength : (ofFacts policy facts).nodes.length =
      (ofFacts policy facts).nodeMap.keys.length := by
    rw [← map_id_nodes, List.length_map]
  rw [hfibers, hlength]
  refine Map.sum_length_fibers _ _ fun id hid => ?_
  rw [← map_id_nodes] at hid
  obtain ⟨node, hnode, rfl⟩ := List.mem_map.1 hid
  obtain ⟨rank, ⟨hrank, hmem⟩, -⟩ := existsUnique_rank_ofFacts hnode
  rw [← map_fst_ranks, ((mem_rank_iff hrank).1 hmem).2]
  exact List.mem_map_of_mem hrank

/-! ### Depth -/

/-- The directory of a node is in canonical spelling, as are those of the packages and the entries
of the policy. -/
theorem exists_normalize_eq_of_mem_nodes
    (hgrouping : ∀ entry ∈ policy.grouping, ∃ written, Path.normalize written = entry)
    (hfacts : ∀ fact ∈ facts, ∃ written, Path.normalize written = fact.directory) {node : Node}
    (hnode : node ∈ (ofFacts policy facts).nodes) :
    ∃ written, Path.normalize written = node.directory := by
  obtain ⟨first, hfirst, heq⟩ := exists_first_of_mem_nodes hnode
  have hdirectory : node.directory = policy.groupOf first.directory := by rw [heq]
  rw [hdirectory]
  -- a node stands on an entry of the policy, or on the directory of its first package
  cases hgrouped : policy.isGrouped first.directory with
  | true => exact hgrouping _ (Policy.isGrouped_iff.1 hgrouped)
  | false =>
    rw [Policy.groupOf_of_not_isGrouped hgrouped]
    exact hfacts first (Policy.mem_members.1 hfirst).1

/-- **Ranks partition the nodes by depth.** Take a policy that was made from rules, for a module of
any root, and packages whose directories are in canonical spelling. Then no rank is empty, the ranks
are in increasing order of depth, every node is in exactly one of them and nothing else is in any,
so that their lengths add up to the number of nodes. The depth of a node is the number of parts of
its directory, none for the root of the project; it is what the identifier has more slashes than the
root of the module, so that nothing is cut off in the subtraction. -/
theorem build_ranked {rules : PolicyRules} {moduleRoot project : String} {disk : Disk}
    (hpolicy : Policy.ofRules rules moduleRoot disk project = .ok policy) {facts : FactSet}
    (hfacts : ∀ fact ∈ facts.toList, ∃ written, Path.normalize written = fact.directory) :
    (build policy facts).Ranked where
  ne_nil rank hrank := (mem_ranks_ofFacts.1 hrank).1
  ascending := ranks_ascending _
  existsUnique_rank node hnode := existsUnique_rank_ofFacts hnode
  exists_node rank hrank id hid := ((mem_rank_iff hrank).1 hid).1
  sum_length := sum_length_ranks policy facts.toList
  depth_eq rank hrank node hnode hid := by
    -- the identifier is the qualified directory, whose slashes are known
    have hdepth := ((mem_rank_iff hrank).1 hid).2
    have hqualify := (sound_of_mem_nodes hnode).id_eq_qualify
    rw [hqualify, Path.depth_qualify] at hdepth
    refine ⟨hdepth.symm, ?_⟩
    rw [hqualify, Path.slashes_qualify, hdepth]
    rfl
  isStep node hnode part hpart := by
    have hgrouping : ∀ entry ∈ policy.grouping, ∃ written, Path.normalize written = entry :=
      fun entry hentry => Policy.exists_normalize_eq_of_mem_grouping hpolicy hentry
    obtain ⟨written, hwritten⟩ := exists_normalize_eq_of_mem_nodes hgrouping hfacts hnode
    rw [← hwritten] at hpart
    exact Path.isStep_of_mem_parts_normalize hpart

/-- A module whose root has two slashes, a group, the package of the root, and an edge to a package
that has no node. -/
theorem build_ranked_deep :
    let rules : PolicyRules := ⟨["./lib//a/"], [], [], []⟩
    let facts := FactSet.ofList
      [(Fact.ofName "main" "").withUsage "corp/team/mod/gone" ["X"], Fact.ofName "tool" "cmd\\tool",
        Fact.ofName "b" "lib/a/b/c", Fact.ofName "lib" "lib"]
    ∃ policy, Policy.ofRules rules "corp/team/mod" ⟨.directory [], []⟩ "" = .ok policy ∧
      (∀ fact ∈ facts.toList, ∃ written, Path.normalize written = fact.directory) ∧
      (build policy facts).ranks = [(0, ["corp/team/mod"]), (1, ["corp/team/mod/lib"]),
        (2, ["corp/team/mod/cmd/tool", "corp/team/mod/lib/a"])] ∧
      (build policy facts).Ranked := by
  intro rules facts
  have hpolicy : Policy.ofRules rules "corp/team/mod" ⟨.directory [], []⟩ "" =
      .ok ⟨"corp/team/mod", ["lib/a"], .empty, .empty⟩ := by rfl
  have hfacts : ∀ fact ∈ facts.toList, ∃ written, Path.normalize written = fact.directory := by
    have hfixed : ∀ fact ∈ facts.toList, Path.normalize fact.directory = fact.directory := by
      decide +kernel
    exact fun fact hfact => ⟨fact.directory, hfixed fact hfact⟩
  exact ⟨_, hpolicy, hfacts, by decide +kernel, build_ranked hpolicy hfacts⟩

end Model

end PackageGraph
