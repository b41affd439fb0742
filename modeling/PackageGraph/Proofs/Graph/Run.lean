import PackageGraph.Proofs.Graph.Edge
import PackageGraph.Proofs.Graph.Quotient
import PackageGraph.Proofs.Sorted.Growth

/-!
# Runs of the builder

What holds of a graph after any run of the builder, whatever facts it was fed and however often they
repeat a directory. Two properties are carried from step to step.

* `Draft.Grows` relates the drafts before and after a fact: nothing is removed, no node changes
  its identifier, name or directory, and no number becomes smaller (`Draft.Grows.add`).
* `Draft.Sound` is an invariant: nodes and weights are what they should be. The empty draft has it
  (`Draft.Sound.empty`) and every fact keeps it (`Draft.Sound.add`), hence every run ends in it
  (`Draft.Sound.ofFacts`). For nodes, the step is about seeding against counting: the first package
  of a node decides whether the node is a group, and every later one agrees, because the node's
  identifier determines its directory. For weights, it relies on growth: their sources keep their
  nodes.

Finishing a draft keeps both, so that `Model.ofFacts_run` states them of finished graphs.
-/

namespace PackageGraph

open Sorted

/-! ### Growth -/

/-- The second node is the first one, which may have counted more packages in the meantime. -/
structure Node.Grows (node node' : Node) : Prop where
  id_eq : node'.id = node.id
  name_eq : node'.name = node.name
  directory_eq : node'.directory = node.directory
  count_le : node.containedPackages ≤ node'.containedPackages

theorem Node.Grows.refl (node : Node) : node.Grows node := ⟨rfl, rfl, rfl, Nat.le_refl _⟩

theorem Node.Grows.trans {node node' node'' : Node} (h : node.Grows node')
    (h' : node'.Grows node'') : node.Grows node'' where
  id_eq := h'.id_eq.trans h.id_eq
  name_eq := h'.name_eq.trans h.name_eq
  directory_eq := h'.directory_eq.trans h.directory_eq
  count_le := Nat.le_trans h.count_le h'.count_le

/-- The second edge is the first one, which may weigh more by now. -/
structure Edge.Grows (edge edge' : Edge) : Prop where
  source_eq : edge'.source = edge.source
  destination_eq : edge'.destination = edge.destination
  forbidden_eq : edge'.forbidden = edge.forbidden
  weight_le : edge.weight ≤ edge'.weight

namespace Draft

/-- The second draft has all that the first one has, and no less of it. -/
structure Grows (draft draft' : Draft) : Prop where
  nodes : draft.nodes.GrowsBy Node.Grows draft'.nodes
  weights : draft.weights.GrowsBy (· ≤ ·) draft'.weights

theorem Grows.refl (draft : Draft) : draft.Grows draft where
  nodes := .refl Node.Grows.refl _
  weights := .refl Nat.le_refl _

theorem Grows.trans {draft draft' draft'' : Draft} (h : draft.Grows draft')
    (h' : draft'.Grows draft'') : draft.Grows draft'' where
  nodes := h.nodes.trans h'.nodes fun _ _ _ => Node.Grows.trans
  weights := h.weights.trans h'.weights fun _ _ _ => Nat.le_trans

/-- Adding numbers makes no weight smaller. -/
theorem growsBy_foldl_add {κ : Type} [Key κ] [DecidableEq κ] (items : List (κ × Nat))
    (weights : Sorted.Map κ Nat) : weights.GrowsBy (· ≤ ·) (items.foldl Map.add weights) := by
  induction items generalizing weights with
  | nil => exact .refl Nat.le_refl weights
  | cons item items ih =>
    have hitem : weights.GrowsBy (· ≤ ·) (weights.add item) :=
      .upsert Nat.le_refl fun a _ => Nat.le_add_right a item.2
    exact hitem.trans (ih (weights.add item)) fun _ _ _ => Nat.le_trans

/-- **No fact removes anything or makes it smaller.** -/
theorem Grows.add (policy : Policy) (draft : Draft) (fact : Fact) :
    draft.Grows (draft.add policy fact) where
  nodes := by
    rw [Draft.add]
    split
    · exact .refl Node.Grows.refl _
    · -- a node that is known is only counted up
      exact .upsert Node.Grows.refl fun node _ => ⟨rfl, rfl, rfl, Nat.le_add_right _ _⟩
  weights := by
    rw [weights_add]
    exact growsBy_foldl_add _ _

/-- **A draft grows all along its run.** -/
theorem Grows.ofFacts_append (policy : Policy) (facts more : List Fact) :
    (Draft.ofFacts policy facts).Grows (Draft.ofFacts policy (facts ++ more)) := by
  rw [Draft.ofFacts_append]
  -- the induction is on the facts that follow, from any draft
  generalize Draft.ofFacts policy facts = draft
  induction more generalizing draft with
  | nil => exact .refl draft
  | cons fact more ih => exact (Grows.add policy draft fact).trans (ih (draft.add policy fact))

end Draft

/-! ### Sound nodes -/

/-- A node is what the node of an identifier should be under a policy. -/
structure Node.Sound (policy : Policy) (id : String) (node : Node) : Prop where
  /-- It knows its own identifier. -/
  id_eq : node.id = id
  /-- The identifier is made from its directory. -/
  id_eq_qualify : id = Path.qualify policy.moduleRoot node.directory
  /-- It counts packages exactly if its directory is a grouping entry. -/
  counts_iff : 0 < node.containedPackages ↔ node.directory ∈ policy.grouping

/-- A truth value counts for something exactly if it is true. -/
private theorem Bool.toNat_pos_iff (b : Bool) : 0 < b.toNat ↔ b = true := by
  cases b <;> simp

/-- **A package leaves its node sound**, whether it makes the node or is counted in it. -/
theorem Node.Sound.nodeWith {policy : Policy} {fact : Fact} {known : Option Node}
    (h : ∀ node, known = some node → node.Sound policy (policy.effectiveId fact.directory)) :
    (Draft.nodeWith policy fact known).Sound policy (policy.effectiveId fact.directory) := by
  cases known with
  | none =>
    -- a node is made with one package or with none, by whether its package is grouped
    refine ⟨rfl, rfl, ?_⟩
    change 0 < (policy.isGrouped fact.directory).toNat ↔
      policy.groupOf fact.directory ∈ policy.grouping
    rw [← Policy.isGrouped_iff, Bool.toNat_pos_iff]
  | some node =>
    have hnode := h node rfl
    refine ⟨hnode.id_eq, hnode.id_eq_qualify, ?_⟩
    -- the identifier determines the directory, so the package and the node agree on the group
    have hdirectory : policy.groupOf fact.directory = node.directory :=
      Path.qualify_injective policy.moduleRoot hnode.id_eq_qualify
    have hgrouped : policy.isGrouped fact.directory = true ↔ node.directory ∈ policy.grouping := by
      rw [Policy.isGrouped_iff, hdirectory]
    change 0 < node.containedPackages + (policy.isGrouped fact.directory).toNat ↔
      node.directory ∈ policy.grouping
    rw [Nat.add_pos_iff_pos_or_pos, hnode.counts_iff, Bool.toNat_pos_iff, hgrouped, or_self]

namespace Draft

/-! ### Sound weights -/

/-- A weight is what a weight between two identifiers should be, beside these nodes. -/
structure SoundWeight (policy : Policy) (nodes : Sorted.Map String Node) (ends : String × String)
    (weight : Nat) : Prop where
  /-- It is no loop. -/
  ne : ends.1 ≠ ends.2
  /-- Something is used. -/
  pos : 0 < weight
  /-- The source has a node. The destination may have none. -/
  source : nodes.contains ends.1 = true
  /-- The destination is in the module. -/
  destination : Path.InModule policy.moduleRoot ends.2

/-- The ends of a relation are the node of its package and some node of the module. -/
theorem ends_of_mem_relations {policy : Policy} {fact : Fact} {item : (String × String) × Nat}
    (h : item ∈ policy.relations fact) :
    item.1.1 = policy.effectiveId fact.directory ∧
      ∃ directory, item.1.2 = policy.effectiveId directory := by
  obtain ⟨-, entry, -, destination, hdestination, -, rfl⟩ := Policy.mem_relations.1 h
  obtain ⟨relative, -, hnode, -, -⟩ := Policy.destination?_eq_some.1 hdestination
  exact ⟨rfl, Path.normalize relative, hnode.symm⟩

/-- Adding numbers that are sound to weights that are sound gives sound weights. -/
theorem soundWeight_foldl_add {policy : Policy} {nodes : Sorted.Map String Node}
    {items : List ((String × String) × Nat)} {weights : Sorted.Map (String × String) Nat}
    (hweights : ∀ ends weight, weights.get? ends = some weight →
      SoundWeight policy nodes ends weight)
    (hitems : ∀ item ∈ items, SoundWeight policy nodes item.1 item.2) {ends : String × String}
    {weight : Nat} (h : (items.foldl Map.add weights).get? ends = some weight) :
    SoundWeight policy nodes ends weight := by
  induction items generalizing weights with
  | nil => exact hweights ends weight h
  | cons item items ih =>
    refine ih (fun ends' weight' h' => ?_) (fun other hother =>
      hitems other (List.mem_cons_of_mem _ hother)) h
    have hitem := hitems item List.mem_cons_self
    by_cases hends : ends' = item.1
    · -- the sum of a sound weight and what was there before
      subst hends
      rw [Map.add, Map.get?_upsert_self, Option.some.injEq] at h'
      have hpos : 0 < weight' := h' ▸ Nat.add_pos_right _ hitem.pos
      exact ⟨hitem.ne, hpos, hitem.source, hitem.destination⟩
    · -- any other weight is what it was
      rw [Map.add, Map.get?_upsert_of_ne _ _ hends] at h'
      exact hweights ends' weight' h'

/-! ### The invariant -/

/-- **The invariant of the builder.** -/
structure Sound (policy : Policy) (draft : Draft) : Prop where
  nodes : ∀ id node, draft.nodes.get? id = some node → node.Sound policy id
  weights : ∀ ends weight, draft.weights.get? ends = some weight →
    SoundWeight policy draft.nodes ends weight

theorem Sound.empty (policy : Policy) : Sound policy .empty where
  nodes _ _ h := nomatch h
  weights _ _ h := nomatch h

/-- **Every fact keeps the invariant.** -/
theorem Sound.add {policy : Policy} {draft : Draft} (h : draft.Sound policy) (fact : Fact) :
    (draft.add policy fact).Sound policy := by
  by_cases homits : omits policy fact = true
  · -- a package that is left out changes nothing
    rw [Draft.add, if_pos homits]
    exact h
  have hnodes : (draft.add policy fact).nodes =
      draft.nodes.upsert (policy.effectiveId fact.directory) (nodeWith policy fact) := by
    rw [Draft.add, if_neg homits]
  constructor
  case nodes =>
    intro id node hnode
    rw [hnodes] at hnode
    by_cases hsame : id = policy.effectiveId fact.directory
    · -- the node of the package, which the package makes or is counted in
      subst hsame
      rw [Map.get?_upsert_self, Option.some.injEq] at hnode
      rw [← hnode]
      exact Node.Sound.nodeWith fun node hknown => h.nodes _ node hknown
    · rw [Map.get?_upsert_of_ne _ _ hsame] at hnode
      -- all other nodes are what they were
      exact h.nodes id node hnode
  case weights =>
    intro ends weight hweight
    rw [weights_add] at hweight
    -- the weights before stay sound beside the nodes after, and so are the numbers that are added
    refine soundWeight_foldl_add (fun ends weight hbefore => ?_) (fun item hitem => ?_) hweight
    · -- no node is lost, so that the source of such a weight keeps its node
      have hsound := h.weights ends weight hbefore
      have hsource := (Grows.add policy draft fact).nodes.contains hsound.source
      exact ⟨hsound.ne, hsound.pos, hsource, hsound.destination⟩
    · -- a relation starts at the node that the fact has just made or found
      obtain ⟨hne, hpos⟩ := Policy.of_mem_relations hitem
      obtain ⟨hsource, directory, hdestination⟩ := ends_of_mem_relations hitem
      refine ⟨hne, hpos, ?_, ?_⟩
      · rw [hsource, hnodes, Map.contains, Map.get?_upsert_self]
        rfl
      · rw [hdestination]
        exact Path.inModule_qualify _ _

/-- **Every run ends in a sound draft.** -/
theorem Sound.ofFacts (policy : Policy) (facts : List Fact) :
    (Draft.ofFacts policy facts).Sound policy := by
  suffices h : ∀ draft : Draft, draft.Sound policy →
      (facts.foldl (Draft.add policy) draft).Sound policy from h .empty (.empty policy)
  induction facts with
  | nil => exact fun _ hdraft => hdraft
  | cons fact facts ih => exact fun draft hdraft => ih _ (hdraft.add fact)

end Draft

/-! ### Finished graphs -/

namespace Model

/-- An edge is what the edge between two identifiers should be in its graph. -/
structure SoundEdge (policy : Policy) (model : Model) (source destination : String) (edge : Edge) :
    Prop where
  source_eq : edge.source = source
  destination_eq : edge.destination = destination
  ne : source ≠ destination
  one_le : 1 ≤ edge.weight
  source_mem : ∃ node, model.node? source = some node ∧ node.id = source
  destination_mem : Path.InModule policy.moduleRoot destination

/-- Every node and every edge of the graph is what it should be. -/
structure Sound (policy : Policy) (model : Model) : Prop where
  nodes : ∀ id node, model.node? id = some node → node.Sound policy id
  edges : ∀ source destination edge, model.edge? source destination = some edge →
    model.SoundEdge policy source destination edge

/-- The second graph has all nodes and edges of the first one; a node may count more packages and an
edge may weigh more, but nothing else about them changes. -/
structure Grows (model model' : Model) : Prop where
  nodes : model.nodeMap.GrowsBy Node.Grows model'.nodeMap
  edges : model.edgeMap.GrowsBy Edge.Grows model'.edgeMap

/-- A sound draft is finished to a sound graph. -/
theorem Sound.finish {policy : Policy} {draft : Draft} (h : draft.Sound policy) :
    (draft.finish policy).Sound policy where
  nodes := h.nodes
  edges := by
    intro source destination edge hedge
    rw [edge?, Draft.finish, Map.get?_mapValues, Option.map_eq_some_iff] at hedge
    obtain ⟨weight, hweight, rfl⟩ := hedge
    have hsound := h.weights (source, destination) weight hweight
    obtain ⟨node, hnode⟩ := Option.isSome_iff_exists.1 hsound.source
    exact ⟨rfl, rfl, hsound.ne, hsound.pos, ⟨node, hnode, (h.nodes source node hnode).id_eq⟩,
      hsound.destination⟩

/-- Every node that is listed is sound under its own identifier. -/
theorem sound_of_mem_nodes {policy : Policy} {facts : List Fact} {node : Node}
    (h : node ∈ (ofFacts policy facts).nodes) : node.Sound policy node.id := by
  have hnode : (ofFacts policy facts).node? node.id = some node := by
    rw [node?_ofFacts]
    exact mem_nodes_ofFacts.1 h
  exact (Sound.finish (Draft.Sound.ofFacts policy facts)).nodes node.id node hnode

/-- A draft that grows is finished to a graph that grows. -/
theorem Grows.finish (policy : Policy) {draft draft' : Draft} (h : draft.Grows draft') :
    (draft.finish policy).Grows (draft'.finish policy) where
  nodes := h.nodes
  edges := h.weights.mapValues fun _ _ _ hle => ⟨rfl, rfl, rfl, hle⟩

/-- **What holds all along a run of the builder.** After any number of facts, which may repeat their
directories, every node is stored under its own identifier, which is made from its directory, and
counts packages exactly if that directory is a grouping entry; every edge leads from a node to
another identifier of the module and weighs something. Further facts remove nothing, leave the
identifier, the name and the directory of every node, and make no count and no weight smaller. -/
theorem ofFacts_run (policy : Policy) (facts : List Fact) (n k : Nat) :
    (ofFacts policy (facts.take n)).Sound policy ∧
      (ofFacts policy (facts.take n)).Grows (ofFacts policy (facts.take (n + k))) := by
  refine ⟨Sound.finish (Draft.Sound.ofFacts policy _), ?_⟩
  rw [List.take_add]
  exact Grows.finish policy (Draft.Grows.ofFacts_append policy _ _)

end Model

end PackageGraph
