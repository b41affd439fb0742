import PackageGraph.Drawing
import PackageGraph.Sorted.Set

/-!
# Mermaid flowcharts

Records as a Mermaid flowchart, one statement a line. Mermaid restricts its identifiers, so every
identifier of the records is given a short one of its own.

## Main definitions

* `Mermaid.assign`: the identifiers of a chart, distinct for distinct identifiers of the records.
* `Mermaid.lines` and `Mermaid.draw`: the lines of a chart, and its text.
-/

namespace PackageGraph.Mermaid

open Sorted

/-! ### Identifiers -/

/-- The characters that an identifier of a chart does not keep. -/
def isReplaced (c : Char) : Bool := [':', '/', '.', ' ', '-', '~', '@', '+'].contains c

/-- An identifier with the characters replaced that a chart cannot have in it. -/
def plainId (id : String) : String :=
  .ofList (id.toList.map fun c => if isReplaced c then '_' else c)

/-- An identifier with a number behind it. -/
def numbered (base : String) (k : Nat) : String := base ++ "_" ++ .ofList (Text.decimal k)

/-- The identifiers to try for a base, in order: itself, then numbered from two. One more than
there are used ones is always enough. -/
def candidates (used : Sorted.Set String) (base : String) : List String :=
  base :: (List.range used.size).map fun k => numbered base (k + 2)

/-- The first candidate that is not used yet. -/
def freshId (used : Sorted.Set String) (base : String) : String :=
  ((candidates used base).find? fun id => !used.contains id).getD base

/-- Identifiers given out so far. -/
structure Assignment where
  /-- The identifier of the chart for an identifier of the records. -/
  assigned : Sorted.Map String String
  /-- The identifiers of the chart that are taken. -/
  used : Sorted.Set String

namespace Assignment

/-- Nothing given out. -/
def empty : Assignment := ⟨.empty, .empty⟩

/-- Give out an identifier for one more identifier of the records. -/
def add (a : Assignment) (id : String) : Assignment :=
  let fresh := freshId a.used (plainId id)
  ⟨a.assigned.insert id fresh, a.used.insert fresh⟩

/-- The identifier of the chart for an identifier of the records. -/
def get (a : Assignment) (id : String) : String := (a.assigned.get? id).getD (plainId id)

end Assignment

/-- All identifiers that occur in records. -/
def allIds (records : Records) : Sorted.Set String :=
  .ofList <| records.nodes.map (·.id) ++
    records.edges.flatMap fun edge => [edge.source, edge.destination]

/-- The identifiers of a chart, given out in the order of the records' identifiers. -/
def assign (records : Records) : Assignment :=
  (allIds records).toList.foldl Assignment.add .empty

/-! ### Statements -/

/-- A text inside a chart. -/
def plainText (cs : List Char) : List Char :=
  cs.flatMap fun c => if c = '"' then "#quot;".toList else [c]

/-- The statement of a node; a group has a box with double sides. -/
def nodeLine (ids : Assignment) (node : NodeRecord) : List Char :=
  let id := "  ".toList ++ (ids.get node.id).toList
  let directory := plainText node.directory.toList
  if node.isGroup then
    id ++ "[[\"".toList ++ directory ++ "<br/>".toList ++ Text.decimal node.containedPackages ++
      " packages\"]]".toList
  else
    id ++ "[\"".toList ++ plainText (node.displayName.getD "").toList ++ "<br/>".toList ++
      directory ++ "\"]".toList

/-- The arrow of an edge; forbidden edges have a thick one. -/
def arrow (forbidden : Bool) : List Char := if forbidden then "==>".toList else "-->".toList

/-- The statement of an edge, with its weight on the arrow. -/
def edgeLine (ids : Assignment) (edge : EdgeRecord) : List Char :=
  "  ".toList ++ (ids.get edge.source).toList ++ ' ' :: arrow edge.forbidden ++
    '|' :: Text.decimal edge.weight ++ "| ".toList ++ (ids.get edge.destination).toList

/-- The positions of the forbidden edges, counted from zero. -/
def forbiddenPositions (edges : List EdgeRecord) : List Nat :=
  (edges.zipIdx.filter (·.1.forbidden)).map (·.2)

/-- The lines that colour forbidden edges, if there are any. -/
def styleLines (edges : List EdgeRecord) : List (List Char) :=
  match forbiddenPositions edges with
  | [] => []
  | positions =>
    [[], "  linkStyle ".toList ++ [','].intercalate (positions.map Text.decimal) ++
      " stroke:red,stroke-width:2px".toList]

/-- The lines of a chart. -/
def lines (records : Records) (options : DrawingOptions) : List (List Char) :=
  let ids := assign records
  ["---".toList, "title: ".toList ++ plainText options.title.toList, "---".toList,
      "flowchart TB".toList, []] ++
    records.nodes.map (nodeLine ids) ++ [[]] ++ records.edges.map (edgeLine ids) ++
    styleLines records.edges

/-- The chart of records. -/
def draw (records : Records) (options : DrawingOptions) : List Char :=
  (lines records options).flatMap (· ++ ['\n'])

@[simp] theorem plainText_nil : plainText [] = [] := rfl

theorem plainText_append (cs more : List Char) :
    plainText (cs ++ more) = plainText cs ++ plainText more := List.flatMap_append

end PackageGraph.Mermaid
