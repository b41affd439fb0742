import PackageGraph.Proofs.Dot.Lexing

/-!
# The skeleton of a drawing

A drawing is a fixed text with places for the texts of the records. Which fixed text it is depends
on the shape of the records alone: on the kinds of their nodes, the weights and the colours of their
edges, the numbers of their ranks and how many members these have. The skeleton is written out
here statement by statement (`skeleton`), and the tokens of a drawing are its skeleton with the
texts of the records put into the places, one after another (`fill_skeleton`).
-/

namespace PackageGraph.Dot

/-! ### Places -/

/-- A part of a skeleton: code, a string that is always the same, or a place for a text. -/
inductive Slot where
  | code (cs : List Char)
  | constant (cs : List Char)
  | place
deriving DecidableEq

/-- The tokens of a skeleton with one text in each place, in order. There have to be as many texts
as there are places. -/
def fill : List Slot → List (List Char) → Option (List Token)
  | [], [] => some []
  | [], _ :: _ => none
  | .code cs :: slots, texts => (fill slots texts).map (cs.map .code ++ ·)
  | .constant cs :: slots, texts => (fill slots texts).map (.string cs :: ·)
  | .place :: _, [] => none
  | .place :: slots, text :: texts => (fill slots texts).map (.string text :: ·)

theorem fill_append {slots more : List Slot} {texts others : List (List Char)}
    {tokens later : List Token} (h : fill slots texts = some tokens)
    (hmore : fill more others = some later) :
    fill (slots ++ more) (texts ++ others) = some (tokens ++ later) := by
  induction slots, texts using fill.induct generalizing tokens with
  | case1 => simp_all [fill]
  -- texts are left over, so nothing is filled
  | case2 => simp [fill] at h
  | case3 cs slots texts ih =>
    obtain ⟨rest, hrest, rfl⟩ := Option.map_eq_some_iff.1 (by simpa only [fill] using h)
    simp [fill, ih hrest]
  | case4 cs slots texts ih =>
    obtain ⟨rest, hrest, rfl⟩ := Option.map_eq_some_iff.1 (by simpa only [fill] using h)
    simp [fill, ih hrest]
  -- a text is missing
  | case5 => simp [fill] at h
  | case6 slots text texts ih =>
    obtain ⟨rest, hrest, rfl⟩ := Option.map_eq_some_iff.1 (by simpa only [fill] using h)
    simp [fill, ih hrest]

/-- If the statement of every item fills its skeleton, then their list does. -/
theorem fill_flatMap {α : Type} {slots : α → List Slot} {texts : α → List (List Char)}
    {tokens : α → List Token} (h : ∀ a, fill (slots a) (texts a) = some (tokens a))
    (items : List α) :
    fill (items.flatMap slots) (items.flatMap texts) = some (items.flatMap tokens) := by
  induction items with
  | nil => rfl
  | cons a items ih => exact fill_append (h a) ih

/-! ### Statements -/

/-- Code of a skeleton. -/
def slot (s : String) : Slot := .code s.toList

/-- A string of a skeleton. -/
def constant (s : String) : Slot := .constant s.toList

/-- The attributes of the graph and its nodes, with places for title and layout. -/
def headerSkeleton : List Slot :=
  [slot "digraph G \x7b\n  graph [charset=", constant "UTF-8", slot ", label=", .place,
    slot ", labelloc=", constant "t", slot ", labeljust=", constant "c", slot ", bgcolor=",
    constant "#343434", slot ", fontsize=18, fontcolor=", constant "white", slot ", style=",
    constant "filled", slot ", rankdir=", constant "TB", slot ", margin=0.5, layout=", .place,
    slot "];\n  node [shape=", constant "record", slot ", style=", constant "solid,filled",
    slot ", fontcolor=6, fontsize=14, color=7, colorscheme=", constant "spectral11", slot "];\n\n"]

/-- A node of a kind, with places for id and label. -/
def nodeSkeleton (isGroup : Bool) : List Slot :=
  [slot "  ", .place, slot " [fillcolor=", slot (if isGroup then "9" else "10"), slot ", label=",
    .place, slot "];\n"]

/-- An edge of a weight, with places for source and destination. -/
def edgeSkeleton (weight : Nat) (forbidden : Bool) : List Slot :=
  [slot "  ", .place, slot " -> ", .place, slot " [color=",
    constant (if forbidden then "red" else "white"), slot ", weight=",
    .constant (Text.decimal weight), slot ", label=",
    .constant ("dep:".toList ++ Text.decimal weight), slot ", fontcolor=", constant "white",
    slot ", decorate=", constant "true", slot "];\n"]

/-- A rank of a depth, with places for its members. -/
def rankSkeleton (depth members : Nat) : List Slot :=
  [slot "  subgraph rank_", .code (Text.decimal depth), slot " \x7b rank=same; "] ++
    (List.replicate members Slot.place).intersperse (slot "; ") ++ [slot "; \x7d\n"]

/-! ### Drawings -/

/-- What a skeleton depends on. -/
structure Shape where
  /-- Which nodes are groups. -/
  kinds : List Bool
  /-- The weights of the edges, and which edges are forbidden. -/
  weights : List (Nat × Bool)
  /-- The depths of the ranks, and how many members they have. -/
  depths : List (Nat × Nat)

/-- The shape of records. -/
def shape (records : Records) : Shape where
  kinds := records.nodes.map NodeRecord.isGroup
  weights := records.edges.map fun edge => (edge.weight, edge.forbidden)
  depths := records.ranks.map fun rank => (rank.depth, rank.members.length)

/-- The skeleton of a drawing: attributes, nodes, edges, and ranks if there are any. -/
def skeleton (shape : Shape) : List Slot :=
  headerSkeleton ++ shape.kinds.flatMap nodeSkeleton ++ [slot "\n"] ++
    shape.weights.flatMap (fun edge => edgeSkeleton edge.1 edge.2) ++
    (if shape.depths.isEmpty then [] else [slot "\n"]) ++
    shape.depths.flatMap (fun rank => rankSkeleton rank.1 rank.2) ++ [slot "\x7d\n"]

/-- The texts of a drawing: title and layout, the id and the label of every node, the source and the
destination of every edge, and the members of every rank. -/
def texts (records : Records) (options : DrawingOptions) : List (List Char) :=
  [options.title.toList, options.layout.toList] ++
    records.nodes.flatMap (fun node => [node.id.toList, recordLabel node]) ++
    records.edges.flatMap (fun edge => [edge.source.toList, edge.destination.toList]) ++
    records.ranks.flatMap (fun rank => rank.members.map String.toList)

/-- Code of a skeleton is code of the drawing. -/
theorem fill_slot (s : String) : fill [slot s] [] = some ([code s].flatMap Piece.tokens) := rfl

theorem fill_headerSkeleton (options : DrawingOptions) :
    fill headerSkeleton [options.title.toList, options.layout.toList] =
      some ((header options).flatMap Piece.tokens) := by
  simp [headerSkeleton, header, fill, slot, constant, code, quoted, Piece.tokens]

/-- The statement of a node is its skeleton with id and label. -/
theorem fill_nodeSkeleton (node : NodeRecord) :
    fill (nodeSkeleton node.isGroup) [node.id.toList, recordLabel node] =
      some ((nodeStatement node).flatMap Piece.tokens) := by
  simp [nodeSkeleton, nodeStatement, fill, slot, code, quoted, Piece.tokens]

/-- The statement of an edge is its skeleton with the two ends. -/
theorem fill_edgeSkeleton (edge : EdgeRecord) :
    fill (edgeSkeleton edge.weight edge.forbidden) [edge.source.toList, edge.destination.toList] =
      some ((edgeStatement edge).flatMap Piece.tokens) := by
  simp [edgeSkeleton, edgeStatement, fill, slot, constant, code, quoted, Piece.tokens]

/-- The members of a rank fill as many places, with the separator between them. -/
theorem fill_intersperse (members : List String) :
    fill ((List.replicate members.length Slot.place).intersperse (slot "; "))
      (members.map String.toList) = some ((rankMembers members).flatMap Piece.tokens) := by
  induction members using rankMembers.induct with
  | case1 => rfl
  | case2 id => rfl
  | case3 id next rest ih =>
    have hslots : (List.replicate (id :: next :: rest).length Slot.place).intersperse (slot "; ") =
        [.place, slot "; "] ++
          (List.replicate (next :: rest).length Slot.place).intersperse (slot "; ") := rfl
    have hfirst : fill [.place, slot "; "] [id.toList] =
        some ([quoted id, code "; "].flatMap Piece.tokens) := rfl
    rw [hslots]
    exact fill_append hfirst ih

/-- The statement of a rank is its skeleton with the members. -/
theorem fill_rankSkeleton (rank : RankRecord) :
    fill (rankSkeleton rank.depth rank.members.length) (rank.members.map String.toList) =
      some ((rankStatement rank).flatMap Piece.tokens) := by
  have hdepth : fill [slot "  subgraph rank_", .code (Text.decimal rank.depth),
      slot " \x7b rank=same; "] [] = some ([code "  subgraph rank_",
        .code (Text.decimal rank.depth), code " \x7b rank=same; "].flatMap Piece.tokens) := rfl
  have hfill := fill_append (fill_append hdepth (fill_intersperse rank.members))
    (fill_slot "; \x7d\n")
  simpa only [rankSkeleton, rankStatement, List.flatMap_append, List.nil_append,
    List.append_nil] using hfill

/-- **A drawing is its skeleton with the texts of the records in the places.** -/
theorem fill_skeleton (records : Records) (options : DrawingOptions) :
    fill (skeleton (shape records)) (texts records options) =
      some ((pieces records options).flatMap Piece.tokens) := by
  have hgap : fill (if records.ranks.isEmpty then [] else [slot "\n"]) [] =
      some ((if records.ranks.isEmpty then [] else [code "\n"]).flatMap Piece.tokens) := by
    split
    · rfl
    · exact fill_slot "\n"
  -- section by section, in the order of the skeleton
  have hnodes := fill_append (fill_append (fill_headerSkeleton options)
    (fill_flatMap fill_nodeSkeleton records.nodes)) (fill_slot "\n")
  have hedges :=
    fill_append (fill_append hnodes (fill_flatMap fill_edgeSkeleton records.edges)) hgap
  have hranks := fill_append (fill_append hedges (fill_flatMap fill_rankSkeleton records.ranks))
    (fill_slot "\x7d\n")
  simpa only [skeleton, shape, texts, pieces, List.flatMap_map, List.flatMap_append,
    List.flatMap_assoc, List.append_nil, List.isEmpty_map] using hranks

end PackageGraph.Dot
