import PackageGraph.Records
import PackageGraph.Sorted.Set

/-!
# The package graph

Nodes for packages and groups of packages, weighted edges for the imports between them, and the
nodes of each depth. All collections are keyed by identifier and sorted.
-/

namespace PackageGraph

open Sorted

/-- One package, or several that were collapsed. -/
inductive NodeKind where
  | leaf
  | group
deriving DecidableEq, Inhabited

/-- A node of the graph. -/
structure Node where
  id : String
  /-- The name of the first package that was seen for this node. -/
  name : String
  /-- The directory of the package, or the grouping directory. -/
  directory : String
  /-- How many packages were collapsed into the node; none for a leaf. -/
  containedPackages : Nat
deriving DecidableEq, Inhabited

namespace Node

def kind (node : Node) : NodeKind := if 0 < node.containedPackages then .group else .leaf

/-- The name that is displayed: a leaf has its package's name, a group has none. -/
def displayName (node : Node) : Option String :=
  match node.kind with
  | .leaf => some node.name
  | .group => none

/-- The record of a node. -/
def toRecord (node : Node) : NodeRecord :=
  ⟨node.id, node.displayName, node.directory, node.containedPackages⟩

end Node

/-- A weighted relation between two nodes. -/
structure Edge where
  source : String
  destination : String
  /-- The number of symbols used, summed over the collapsed packages. -/
  weight : Nat
  /-- Do the rules forbid the relation? -/
  forbidden : Bool
deriving DecidableEq, Inhabited

/-- The record of an edge. -/
def Edge.toRecord (edge : Edge) : EdgeRecord :=
  ⟨edge.source, edge.destination, edge.weight, edge.forbidden⟩

/-- The weights of some edges taken together. -/
def Edge.totalWeight : List Edge → Nat
  | [] => 0
  | edge :: rest => edge.weight + totalWeight rest

/-- Counts over a graph. -/
structure Stats where
  leafNodes : Nat
  groupNodes : Nat
  edges : Nat
  forbiddenEdges : Nat
  totalWeight : Nat
  ranks : Nat
deriving DecidableEq, Inhabited

/-- The package graph of a module. -/
structure Model where
  moduleRoot : String
  /-- The nodes by identifier. -/
  nodeMap : Sorted.Map String Node
  /-- The edges by source and destination. -/
  edgeMap : Sorted.Map (String × String) Edge
  /-- The identifiers of the nodes of each depth. -/
  rankMap : Sorted.Map Nat (Sorted.Set String)
deriving DecidableEq, Inhabited

namespace Model

/-- The nodes in the order of their identifiers. -/
def nodes (model : Model) : List Node := model.nodeMap.values

/-- The edges in the order of source and destination. -/
def edges (model : Model) : List Edge := model.edgeMap.values

/-- The ranks, least depth first, with their members in order. -/
def ranks (model : Model) : List (Nat × List String) :=
  model.rankMap.entries.map fun (depth, members) => (depth, members.toList)

def node? (model : Model) (id : String) : Option Node := model.nodeMap.get? id

def edge? (model : Model) (source destination : String) : Option Edge :=
  model.edgeMap.get? (source, destination)

/-- The edges that the rules forbid. -/
def forbiddenEdges (model : Model) : List Edge := model.edges.filter (·.forbidden)

/-- The nodes that stand for collapsed packages. -/
def groups (model : Model) : List Node := model.nodes.filter (·.kind = .group)

/-- The weight of a relation, zero if there is none. -/
def weight (model : Model) (source destination : String) : Nat :=
  ((model.edge? source destination).map Edge.weight).getD 0

def stats (model : Model) : Stats where
  leafNodes := model.nodes.length - model.groups.length
  groupNodes := model.groups.length
  edges := model.edges.length
  forbiddenEdges := model.forbiddenEdges.length
  totalWeight := Edge.totalWeight model.edges
  ranks := model.rankMap.size

/-- The graph as sorted lists of records. -/
def toRecords (model : Model) : Records where
  version := Records.currentVersion
  moduleRoot := model.moduleRoot
  nodes := model.nodes.map Node.toRecord
  edges := model.edges.map Edge.toRecord
  ranks := model.ranks.map fun (depth, members) => ⟨depth, members⟩

@[simp] theorem toRecords_version (model : Model) :
    model.toRecords.version = Records.currentVersion := rfl

@[simp] theorem toRecords_moduleRoot (model : Model) :
    model.toRecords.moduleRoot = model.moduleRoot := rfl

end Model

end PackageGraph
