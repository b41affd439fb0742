import PackageGraph.Records
import PackageGraph.Text.Basic

/-!
# Drawings

What a drawing of records is asked to look like beyond the records themselves.
-/

namespace PackageGraph

/-- Options of a drawing that do not come from the graph. -/
structure DrawingOptions where
  /-- The layout engine. -/
  layout : String
  title : String
deriving DecidableEq

namespace DrawingOptions

/-- The options that hold unless others are chosen. -/
def default : DrawingOptions := ⟨"dot", "package relation"⟩

instance : Inhabited DrawingOptions := ⟨default⟩

/-- The layout engines that can be chosen. -/
def layoutEngines : List String := ["dot", "neato", "fdp", "sfdp", "twopi", "circo"]

end DrawingOptions

end PackageGraph
