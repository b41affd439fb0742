import PackageGraph.Dot
import PackageGraph.Mermaid
import PackageGraph.Records.Json

/-!
# Output formats

The three forms that records are written in, and the names a user calls them by.
-/

namespace PackageGraph

/-- A form that records are written in. -/
inductive OutputFormat where
  | dot
  | mermaid
  | json
deriving DecidableEq, Inhabited

namespace OutputFormat

/-- The format of a name; case matters. -/
def ofName? : String → Option OutputFormat
  | "dot" => some .dot
  | "graphviz" => some .dot
  | "mermaid" => some .mermaid
  | "md" => some .mermaid
  | "json" => some .json
  | _ => none

/-- The text of records in a format. -/
def write (format : OutputFormat) (records : Records) (options : DrawingOptions) : String :=
  match format with
  | .dot => .ofList (Dot.draw records options)
  | .mermaid => .ofList (Mermaid.draw records options)
  | .json => records.toJson ++ "\n"

end OutputFormat

end PackageGraph
