import PackageGraph.Drawing

/-!
# Graphviz drawings

Records as a directed graph in the DOT language. A drawing is put together from pieces, plain code
and quoted texts, so that what comes from the records stands between quotes wherever it is not a
number.

## Main definitions

* `Dot.escape`: a text as it stands between quotes.
* `Dot.recordLabel`: the two fields of a node's label.
* `Dot.pieces` and `Dot.draw`: the pieces of a drawing, and its text.
-/

namespace PackageGraph.Dot

/-! ### Quoted texts -/

/-- The characters that have a meaning of their own inside a record label. -/
def isStructural (c : Char) : Bool := c = '\x7b' || c = '\x7d' || c = '|' || c = '<' || c = '>'

/-- Does a text begin with a character that has a meaning in a record label? -/
def beginsStructural : List Char → Bool
  | [] => false
  | c :: _ => isStructural c

/-- A text as it stands between quotes. Quotes are escaped, and so are backslashes, unless the
backslash is itself the escape of a record label. -/
def escape : List Char → List Char
  | [] => []
  | c :: rest =>
    if c = '"' then '\\' :: '"' :: escape rest
    else if c = '\\' ∧ beginsStructural rest = false then '\\' :: '\\' :: escape rest
    else c :: escape rest

/-- A text between quotes. -/
def quote (cs : List Char) : List Char := '"' :: escape cs ++ ['"']

/-! ### Labels -/

/-- A text inside a field of a record label. -/
def fieldText (cs : List Char) : List Char :=
  cs.flatMap fun c => if isStructural c then ['\\', c] else [c]

/-- A record label with two named fields. -/
def twoFields (name value name' value' : List Char) : List Char :=
  '\x7b' :: name ++ ": ".toList ++ value ++ '|' :: name' ++ ": ".toList ++ value' ++ ['\x7d']

/-- The label of a node: package name and directory, or directory and number of packages. -/
def recordLabel (node : NodeRecord) : List Char :=
  let directory := fieldText node.directory.toList
  match node.isGroup, node.displayName with
  | false, some name => twoFields "pkg".toList (fieldText name.toList) "path".toList directory
  | _, _ =>
    twoFields "path".toList directory "pkg".toList (Text.decimal node.containedPackages)

/-! ### Drawings -/

/-- A piece of a drawing. -/
inductive Piece where
  /-- Code of the drawing language. -/
  | code (cs : List Char)
  /-- A text that is quoted. -/
  | quoted (cs : List Char)
deriving DecidableEq, Inhabited

/-- The text of a piece. -/
def Piece.text : Piece → List Char
  | .code cs => cs
  | .quoted cs => quote cs

/-- A piece of code. -/
def code (s : String) : Piece := .code s.toList

/-- A quoted text. -/
def quoted (s : String) : Piece := .quoted s.toList

/-- The beginning of a drawing, with the defaults of the graph and its nodes. -/
def header (options : DrawingOptions) : List Piece :=
  [code "digraph G \x7b\n  graph [charset=", quoted "UTF-8", code ", label=", quoted options.title,
    code ", labelloc=", quoted "t", code ", labeljust=", quoted "c", code ", bgcolor=",
    quoted "#343434", code ", fontsize=18, fontcolor=", quoted "white", code ", style=",
    quoted "filled", code ", rankdir=", quoted "TB", code ", margin=0.5, layout=",
    quoted options.layout, code "];\n  node [shape=", quoted "record", code ", style=",
    quoted "solid,filled", code ", fontcolor=6, fontsize=14, color=7, colorscheme=",
    quoted "spectral11", code "];\n\n"]

/-- The statement of a node. Groups have a fill colour of their own. -/
def nodeStatement (node : NodeRecord) : List Piece :=
  [code "  ", quoted node.id, code " [fillcolor=", code (if node.isGroup then "9" else "10"),
    code ", label=", .quoted (recordLabel node), code "];\n"]

/-- The statement of an edge. Forbidden edges are red. -/
def edgeStatement (edge : EdgeRecord) : List Piece :=
  [code "  ", quoted edge.source, code " -> ", quoted edge.destination, code " [color=",
    quoted (if edge.forbidden then "red" else "white"), code ", weight=",
    .quoted (Text.decimal edge.weight), code ", label=",
    .quoted ("dep:".toList ++ Text.decimal edge.weight), code ", fontcolor=", quoted "white",
    code ", decorate=", quoted "true", code "];\n"]

/-- The quoted members of a rank, with a separator before all but the first. -/
def rankMembers : List String → List Piece
  | [] => []
  | [id] => [quoted id]
  | id :: next :: rest => quoted id :: code "; " :: rankMembers (next :: rest)

/-- The statement that puts the members of a rank on one level. -/
def rankStatement (rank : RankRecord) : List Piece :=
  [code "  subgraph rank_", .code (Text.decimal rank.depth), code " \x7b rank=same; "] ++
    rankMembers rank.members ++ [code "; \x7d\n"]

/-- The pieces of a drawing, first to last. -/
def pieces (records : Records) (options : DrawingOptions) : List Piece :=
  header options ++ records.nodes.flatMap nodeStatement ++ [code "\n"] ++
    records.edges.flatMap edgeStatement ++
    (if records.ranks.isEmpty then [] else [code "\n"]) ++
    records.ranks.flatMap rankStatement ++ [code "\x7d\n"]

/-- The drawing of records. -/
def draw (records : Records) (options : DrawingOptions) : List Char :=
  (pieces records options).flatMap Piece.text

@[simp] theorem escape_nil : escape [] = [] := rfl

@[simp] theorem fieldText_nil : fieldText [] = [] := rfl

theorem fieldText_append (cs more : List Char) :
    fieldText (cs ++ more) = fieldText cs ++ fieldText more := List.flatMap_append

end PackageGraph.Dot
