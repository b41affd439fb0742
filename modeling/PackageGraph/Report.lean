import PackageGraph.Graph.Model

/-!
# Reports

What is printed about a model: the relations that the rules forbid, and counts.
-/

namespace PackageGraph.Report

/-- Lines as a text, each with its line feed. -/
def unlines (lines : List String) : String := String.join (lines.map (· ++ "\n"))

/-- The line of a forbidden relation. -/
def relation (edge : Edge) : String :=
  "  " ++ edge.source ++ " -> " ++ edge.destination ++ " (dep:" ++ toString edge.weight ++ ")"

/-- The list of forbidden relations. -/
def forbidden (edges : List Edge) : String :=
  if edges.isEmpty then unlines ["No forbidden relations."]
  else unlines (("Forbidden relations: " ++ toString edges.length) :: edges.map relation)

/-- The line of a rank. -/
def rank (depth : Nat) (members : List String) : String :=
  "  depth " ++ toString depth ++ ": " ++ toString members.length ++ " nodes"

/-- The line of a group. -/
def group (node : Node) : String :=
  "  " ++ node.directory ++ " (" ++ toString node.containedPackages ++ " packages)"

/-- The counts of a model, and its groups if it has any. -/
def summary (model : Model) : String :=
  let stats := model.stats
  let groups := model.groups.map group
  unlines <|
    ["Module: " ++ model.moduleRoot,
      "",
      "Nodes: " ++ toString (stats.leafNodes + stats.groupNodes),
      "  packages: " ++ toString stats.leafNodes,
      "  groups: " ++ toString stats.groupNodes,
      "Edges: " ++ toString stats.edges,
      "  forbidden: " ++ toString stats.forbiddenEdges,
      "Total weight: " ++ toString stats.totalWeight,
      "Ranks: " ++ toString stats.ranks] ++
    model.ranks.map (fun (depth, members) => rank depth members) ++
    if groups.isEmpty then [] else "" :: "Groups:" :: groups

@[simp] theorem forbidden_nil : forbidden [] = "No forbidden relations.\n" := by decide

end PackageGraph.Report
