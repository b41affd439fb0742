/-!
# Graph records

A finished graph, flattened into lists: all that a drawing or a stored graph needs. The lists of a
graph that was built are sorted; records that were read may have any order.
-/

namespace PackageGraph

/-- One drawn node. -/
structure NodeRecord where
  id : String
  /-- The package name; a group has none. -/
  displayName : Option String
  directory : String
  /-- How many packages were collapsed; none for a single package. -/
  containedPackages : Nat
deriving DecidableEq, Inhabited

/-- Does the node stand for collapsed packages? -/
def NodeRecord.isGroup (node : NodeRecord) : Bool := 0 < node.containedPackages

/-- One weighted relation. -/
structure EdgeRecord where
  source : String
  destination : String
  weight : Nat
  forbidden : Bool
deriving DecidableEq, Inhabited

/-- Nodes that are drawn on one level. -/
structure RankRecord where
  depth : Nat
  members : List String
deriving DecidableEq, Inhabited

/-- A graph as lists of records. -/
structure Records where
  version : String
  moduleRoot : String
  nodes : List NodeRecord
  edges : List EdgeRecord
  ranks : List RankRecord
deriving DecidableEq, Inhabited

/-- The version of the record format that is written, and the only one that is read. -/
def Records.currentVersion : String := "1.0.0"

end PackageGraph
