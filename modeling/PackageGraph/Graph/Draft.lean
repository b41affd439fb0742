import PackageGraph.Fact
import PackageGraph.Graph.Model
import PackageGraph.Policy

/-!
# Building a package graph

A graph is built from facts one by one. A `Draft` holds the nodes and the weights so far, both
keyed by identifier, so that the order of the facts matters to nothing but the name a group
remembers. `Draft.finish` marks forbidden edges and sorts the nodes into ranks.

## Main definitions

* `Policy.destination?`: the node an import leads to, if the import counts.
* `Draft.add`: the contribution of one fact.
* `Model.build`: the graph of a set of facts.
-/

namespace PackageGraph

open Sorted

/-- The node that an import leads to. An import counts unless it leaves the module, leads back to
its own node, or leads to a package that is left out. -/
def Policy.destination? (policy : Policy) (source importPath : String) : Option String := do
  let relative ← Path.relativeTo? policy.moduleRoot importPath
  let directory := Path.normalize relative
  let destination := policy.effectiveId directory
  if destination = source || policy.isExcluded (Path.qualify policy.moduleRoot directory) then none
  else some destination

/-- A graph under construction. -/
structure Draft where
  nodes : Sorted.Map String Node
  /-- The weight between a source and a destination. -/
  weights : Sorted.Map (String × String) Nat
deriving DecidableEq, Inhabited

namespace Draft

/-- No packages yet. -/
def empty : Draft := ⟨.empty, .empty⟩

/-- Is the package of a fact left out? -/
def omits (policy : Policy) (fact : Fact) : Bool :=
  policy.isExcluded (Path.qualify policy.moduleRoot fact.directory)

/-- The node of a package after one more package was seen: a new one, or the known one with one
package more if it is a group. -/
def nodeWith (policy : Policy) (fact : Fact) : Option Node → Node
  | none =>
    { id := policy.effectiveId fact.directory
      name := fact.name
      directory := policy.groupOf fact.directory
      containedPackages := (policy.isGrouped fact.directory).toNat }
  | some node =>
    { node with
      containedPackages := node.containedPackages + (policy.isGrouped fact.directory).toNat }

/-- Add what one import weighs. -/
def addImport (policy : Policy) (source : String)
    (weights : Sorted.Map (String × String) Nat) (entry : String × Sorted.Set String) :
    Sorted.Map (String × String) Nat :=
  match policy.destination? source entry.1 with
  | none => weights
  | some destination =>
    -- An import without symbols makes no edge, not even one of weight zero.
    if entry.2.isEmpty then weights
    else weights.upsert (source, destination) fun known => known.getD 0 + entry.2.size

/-- Add the node and the imports of one package, unless it is left out. -/
def add (policy : Policy) (draft : Draft) (fact : Fact) : Draft :=
  if omits policy fact then draft
  else
    let source := policy.effectiveId fact.directory
    { nodes := draft.nodes.upsert source (nodeWith policy fact)
      weights := fact.usage.entries.foldl (addImport policy source) draft.weights }

/-- The identifiers of nodes, gathered by depth below the module's root. -/
def ranksOf (moduleRoot : String) (ids : List String) : Sorted.Map Nat (Sorted.Set String) :=
  ids.foldl (fun ranks id =>
    ranks.upsert (Path.depth moduleRoot id) fun known => (known.getD .empty).insert id) .empty

/-- The graph of a draft: edges with their marks, nodes with their ranks. -/
def finish (policy : Policy) (draft : Draft) : Model where
  moduleRoot := policy.moduleRoot
  nodeMap := draft.nodes
  edgeMap := draft.weights.mapValues fun (source, destination) weight =>
    ⟨source, destination, weight, policy.isForbidden source destination⟩
  rankMap := ranksOf policy.moduleRoot draft.nodes.keys

/-- The draft of a list of facts. -/
def ofFacts (policy : Policy) (facts : List Fact) : Draft := facts.foldl (add policy) empty

@[simp] theorem ofFacts_nil (policy : Policy) : ofFacts policy [] = empty := rfl

theorem ofFacts_append (policy : Policy) (facts more : List Fact) :
    ofFacts policy (facts ++ more) = more.foldl (add policy) (ofFacts policy facts) := by
  simp [ofFacts, List.foldl_append]

end Draft

/-- The graph of a list of facts, in the order given. -/
def Model.ofFacts (policy : Policy) (facts : List Fact) : Model :=
  (Draft.ofFacts policy facts).finish policy

/-- The graph of a set of facts. -/
def Model.build (policy : Policy) (facts : FactSet) : Model :=
  Model.ofFacts policy facts.toList

end PackageGraph
