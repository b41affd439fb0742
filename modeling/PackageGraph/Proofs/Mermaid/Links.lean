import Mathlib.Data.List.DropRight
import PackageGraph.Proofs.Mermaid.Distinct
import PackageGraph.Proofs.Mermaid.Statement
import PackageGraph.Proofs.Stage

/-!
# The links of a chart

A chart shows the edges of its records as links between identifiers of the chart, one statement
each, and colours forbidden ones by their positions. The statements stand at the end, behind the
last blank line of the chart, or behind the last but one if there is something to colour. Nothing
that stands before matters, so a title or a label may look like anything (`readRelations?`).

No identifier of a chart has a blank in it, so a statement falls into its parts at its blanks
(`readLink?_edgeLine`). Identifiers of the chart are different for different identifiers of the
records, so that the edges themselves are read back if it is known which are which
(`recoverEdges?`). The main statement is `draw_links`.
-/

namespace PackageGraph.Mermaid

open Sorted

/-! ### Reading -/

/-- An edge as a chart shows it, with the identifiers of the chart. -/
structure Link where
  source : List Char
  destination : List Char
  weight : Nat
  forbidden : Bool
deriving DecidableEq

/-- What a chart says of relations: its links in order, and the positions that it colours, if it
colours any. -/
structure Relations where
  links : List Link
  coloured : Option (List Nat)
deriving DecidableEq

/-- The number that is written in digits. -/
def readNumber? (digits : List Char) : Option Nat :=
  if digits.all Char.isDigit then some (Text.ofDigits digits) else none

/-- Is an arrow the one of forbidden links? -/
def readArrow? (cs : List Char) : Option Bool :=
  if cs = "==>".toList then some true else if cs = "-->".toList then some false else none

/-- The link of a statement: an identifier, an arrow with a weight between bars, an identifier. -/
def readLink? (line : List Char) : Option Link :=
  match line.splitOn ' ' with
  | [[], [], source, weighted, destination] =>
    match weighted.splitOn '|' with
    | [shape, weight, []] => do
      return ⟨source, destination, ← readNumber? weight, ← readArrow? shape⟩
    | _ => none
  | _ => none

/-- The positions of a statement that colours links. -/
def readStyle? (line : List Char) : Option (List Nat) :=
  match line.splitOn ' ' with
  | [[], [], keyword, positions, style] =>
    if keyword = "linkStyle".toList ∧ style = "stroke:red,stroke-width:2px".toList then
      (positions.splitOn ',').mapM readNumber?
    else none
  | _ => none

/-- The lines behind the last blank one. -/
def lastBlock (lines : List (List Char)) : List (List Char) := lines.rtakeWhile (· ≠ [])

/-- The relations of a chart. If its last line colours links, then this line and the blank one before
it are set aside. -/
def readRelations? (text : List Char) : Option Relations :=
  let lines := (text.splitOn '\n').dropLast
  match lines.getLast?.bind readStyle? with
  | some positions =>
    ((lastBlock lines.dropLast.dropLast).mapM readLink?).map fun links => ⟨links, some positions⟩
  | none => ((lastBlock lines).mapM readLink?).map fun links => ⟨links, none⟩

/-! ### Reading edges back -/

/-- The identifier of the records that was given one of the chart. -/
def Assignment.recordId? (a : Assignment) (shown : List Char) : Option String :=
  (a.assigned.entries.find? fun entry => entry.2.toList = shown).map Prod.fst

/-- The edge that a link shows. -/
def Link.edge? (ids : Assignment) (link : Link) : Option EdgeRecord := do
  let source ← ids.recordId? link.source
  let destination ← ids.recordId? link.destination
  return ⟨source, destination, link.weight, link.forbidden⟩

/-- The edges that a chart shows, read from its text and the identifiers that were given out. -/
def recoverEdges? (ids : Assignment) (text : List Char) : Option (List EdgeRecord) := do
  let relations ← readRelations? text
  relations.links.mapM (Link.edge? ids)

/-- The link of an edge. -/
def linkOf (ids : Assignment) (edge : EdgeRecord) : Link where
  source := (ids.get edge.source).toList
  destination := (ids.get edge.destination).toList
  weight := edge.weight
  forbidden := edge.forbidden

/-- The relations of records. -/
def relationsOf (records : Records) : Relations where
  links := records.edges.map (linkOf (assign records))
  coloured :=
    if forbiddenPositions records.edges = [] then none
    else some (forbiddenPositions records.edges)

/-! ### Statements -/

/-- No character that is replaced is left in a chart's identifier. -/
theorem isReplaced_of_mem_get_assign {records : Records} {id : String} {c : Char}
    (h : c ∈ ((assign records).get id).toList) : isReplaced c = false := by
  obtain ⟨suffix, hget, hsuffix⟩ := get_assign records id
  rw [hget, List.mem_append, mem_plainId] at h
  rcases h with (⟨-, hkept⟩ | ⟨rfl, -⟩) | h
  · exact hkept
  · decide
  · exact hsuffix.isReplaced h

/-- A character that is replaced is in no identifier of a chart. -/
theorem not_mem_get_assign {c : Char} (h : isReplaced c = true) (records : Records) (id : String) :
    c ∉ ((assign records).get id).toList := fun hmem => by
  rw [isReplaced_of_mem_get_assign hmem] at h
  cases h

theorem readNumber?_decimal (n : Nat) : readNumber? (Text.decimal n) = some n := by
  have hdigits : (Text.decimal n).all Char.isDigit = true :=
    List.all_eq_true.2 fun _ => Text.isDigit_of_mem_decimal
  rw [readNumber?, if_pos hdigits, Text.ofDigits_decimal]

theorem readArrow?_arrow (forbidden : Bool) : readArrow? (arrow forbidden) = some forbidden := by
  cases forbidden <;> rfl

/-- The parts of a link's statement, cut at its blanks. -/
theorem splitOn_edgeLine (records : Records) (edge : EdgeRecord) :
    (edgeLine (assign records) edge).splitOn ' ' =
      [[], [], ((assign records).get edge.source).toList,
        ['|'].intercalate [arrow edge.forbidden, Text.decimal edge.weight, []],
        ((assign records).get edge.destination).toList] := by
  have hline : edgeLine (assign records) edge =
      [' '].intercalate [[], [], ((assign records).get edge.source).toList,
        ['|'].intercalate [arrow edge.forbidden, Text.decimal edge.weight, []],
        ((assign records).get edge.destination).toList] := by
    simp [edgeLine, List.intercalate_cons_cons]
  -- no part of the statement has a blank in it
  have harrow : ' ' ∉ arrow edge.forbidden := by
    cases edge.forbidden <;> decide
  rw [hline, List.splitOn_intercalate ' ' _ (by simp)]
  simp [List.intercalate_cons_cons, not_mem_get_assign, harrow, Text.not_mem_decimal, isReplaced]

/-- **The statement of an edge is read as its link.** -/
theorem readLink?_edgeLine (records : Records) (edge : EdgeRecord) :
    readLink? (edgeLine (assign records) edge) = some (linkOf (assign records) edge) := by
  have harrow : '|' ∉ arrow edge.forbidden := by
    cases edge.forbidden <;> decide
  -- the weight stands between two bars
  have hweighted : (['|'].intercalate [arrow edge.forbidden, Text.decimal edge.weight, []]).splitOn
      '|' = [arrow edge.forbidden, Text.decimal edge.weight, []] := by
    refine List.splitOn_intercalate '|' ?_ (by simp)
    simp [harrow, Text.not_mem_decimal]
  rw [readLink?, splitOn_edgeLine]
  dsimp only
  rw [hweighted]
  dsimp only
  rw [readNumber?_decimal, readArrow?_arrow]
  rfl

/-- No link's statement colours links: an identifier has no colon in it. -/
theorem readStyle?_edgeLine (records : Records) (edge : EdgeRecord) :
    readStyle? (edgeLine (assign records) edge) = none := by
  have hcolon : ':' ∈ "stroke:red,stroke-width:2px".toList := by decide
  rw [readStyle?, splitOn_edgeLine]
  dsimp only
  rw [if_neg]
  rintro ⟨-, hstyle⟩
  -- the destination stands where the colour would be
  rw [← hstyle] at hcolon
  exact not_mem_get_assign rfl records edge.destination hcolon

/-- What is read as colouring links begins with its keyword. -/
theorem exists_of_readStyle? {line : List Char} {positions : List Nat}
    (h : readStyle? line = some positions) :
    ∃ rest, line = ' ' :: ' ' :: ("linkStyle".toList ++ ' ' :: rest) := by
  rw [readStyle?] at h
  split at h
  · next keyword numbers style hparts =>
    split at h
    · next hstyle =>
      have hline : [' '].intercalate (line.splitOn ' ') = line := List.intercalate_splitOn ' '
      rw [hparts, hstyle.1] at hline
      refine ⟨numbers ++ ' ' :: style, hline.symm.trans ?_⟩
      simp only [List.intercalate_cons_cons, List.intercalate_singleton, List.nil_append,
        List.append_assoc, List.cons_append]
    · cases h
  · cases h

/-- What has no separator in it ends where a separator stands, or before. -/
theorem prefix_of_append_eq {separator : Char} {xs ys xs' ys' : List Char} (h : separator ∉ xs)
    (heq : xs ++ ys = xs' ++ separator :: ys') : xs <+: xs' := by
  rcases List.append_eq_append_iff.1 heq with ⟨as, rfl, -⟩ | ⟨bs, rfl, hrest⟩
  · exact List.prefix_append xs as
  · cases bs with
    | nil => simp
    | cons b bs =>
      -- the separator would stand in the first list
      obtain ⟨rfl, -⟩ := List.cons.inj hrest
      exact absurd (List.mem_append_right xs' List.mem_cons_self) h

/-- No node's statement colours links: before its first blank stands a quote. -/
theorem readStyle?_nodeLine (records : Records) (node : NodeRecord) :
    readStyle? (nodeLine (assign records) node) = none := by
  rw [Option.eq_none_iff_forall_ne_some]
  intro positions hread
  obtain ⟨rest, hline⟩ := exists_of_readStyle? hread
  have hbox : ((assign records).get node.id).toList ++ opening node ++
      (nodeLabel node ++ closing node) = "linkStyle".toList ++ ' ' :: rest := by
    rw [nodeLine_eq] at hline
    simpa only [String.reduceToList, List.cons_append, List.nil_append, List.append_assoc,
      List.cons.injEq, true_and] using hline
  have hblank : ' ' ∉ ((assign records).get node.id).toList ++ opening node := by
    rw [List.mem_append, not_or, opening]
    refine ⟨not_mem_get_assign rfl records node.id, ?_⟩
    split <;> decide
  have hquote : '"' ∈ opening node := by
    rw [opening]
    split <;> decide
  -- the identifier and the quote behind it would have to stand in the keyword
  have hkeyword : '"' ∈ "linkStyle".toList :=
    (prefix_of_append_eq hblank hbox).subset (List.mem_append_right _ hquote)
  exact absurd hkeyword (by decide)

/-- The parts of a statement that colours links, put together again. -/
theorem styleLine_eq (positions : List Nat) :
    styleLine positions = [' '].intercalate [[], [], "linkStyle".toList,
      [','].intercalate (positions.map Text.decimal), "stroke:red,stroke-width:2px".toList] := by
  unfold styleLine
  simp only [String.reduceToList, List.intercalate_cons_cons, List.intercalate_singleton,
    List.nil_append, List.append_assoc, List.cons_append]

/-- **The positions of coloured links are read back.** -/
theorem readStyle?_styleLine {positions : List Nat} (h : positions ≠ []) :
    readStyle? (styleLine positions) = some positions := by
  have hblank : ' ' ∉ [','].intercalate (positions.map Text.decimal) :=
    not_mem_intercalate_decimal (by decide) (by decide) positions
  -- the positions have commas between them, and no blanks
  have hparts : (styleLine positions).splitOn ' ' =
      [[], [], "linkStyle".toList, [','].intercalate (positions.map Text.decimal),
        "stroke:red,stroke-width:2px".toList] := by
    rw [styleLine_eq]
    refine List.splitOn_intercalate ' ' ?_ (by simp)
    simp only [List.forall_mem_cons]
    exact ⟨by decide, by decide, by decide, hblank, by decide, nofun⟩
  have hnumbers : ([','].intercalate (positions.map Text.decimal)).splitOn ',' =
      positions.map Text.decimal := by
    refine List.splitOn_intercalate ',' ?_ (by simpa using h)
    simp [Text.not_mem_decimal]
  have hread : (positions.map Text.decimal).mapM readNumber? = some positions :=
    mapM_map_eq_pure fun n _ => readNumber?_decimal n
  rw [readStyle?, hparts]
  dsimp only
  rw [if_pos ⟨rfl, rfl⟩, hnumbers, hread]

/-! ### Lines -/

/-- The lines behind the last blank one are a block without blank lines. -/
theorem lastBlock_append {block : List (List Char)} (h : [] ∉ block) (start : List (List Char)) :
    lastBlock (start ++ [] :: block) = block := by
  have hblock : ∀ line ∈ block.reverse, (decide (line ≠ [])) = true := by
    intro line hline
    rw [List.mem_reverse] at hline
    exact decide_eq_true fun hnil => h (hnil ▸ hline)
  -- from behind, the block is all that stands before the first blank line
  rw [lastBlock, List.rtakeWhile, List.reverse_append, List.reverse_cons, List.append_assoc,
    List.takeWhile_append_of_pos hblock]
  simp

/-- **The lines behind a blank one** are those of the text if no line feed is in them, whatever
stands before. -/
theorem exists_splitOn_flatMap (before : List (List Char)) {lines : List (List Char)}
    (h : ∀ line ∈ lines, '\n' ∉ line) :
    ∃ start, ((before ++ [] :: lines).flatMap (· ++ ['\n'])).splitOn '\n' =
      start ++ [] :: lines ++ [[]] := by
  -- a line before the blank one may be cut into several, which all go to the start
  induction before with
  | nil =>
    refine ⟨[], ?_⟩
    exact (splitOn_flatMap_iff _).2 (List.forall_mem_cons.2 ⟨List.not_mem_nil, h⟩)
  | cons line before ih =>
    obtain ⟨start, hstart⟩ := ih
    refine ⟨line.splitOn '\n' ++ start, ?_⟩
    rw [List.cons_append, List.flatMap_cons, List.append_assoc, List.singleton_append,
      List.splitOn_append_cons_self, hstart]
    simp only [List.append_assoc]

theorem edgeLine_ne_nil (records : Records) (edge : EdgeRecord) :
    edgeLine (assign records) edge ≠ [] := by
  simp [edgeLine]

/-- **Behind the last lines that title and labels are in** stand a blank one, the links and what
colours them. -/
theorem exists_splitOn_draw {records : Records} (options : DrawingOptions)
    (h : ∀ edge ∈ records.edges, '\n' ∉ edge.source.toList ∧ '\n' ∉ edge.destination.toList) :
    ∃ start, (draw records options).splitOn '\n' =
      start ++ [] :: (records.edges.map (edgeLine (assign records)) ++ styleLines records.edges) ++
        [[]] := by
  have hlines : ∀ line ∈ records.edges.map (edgeLine (assign records)) ++ styleLines records.edges,
      '\n' ∉ line := by
    rw [List.forall_mem_append, List.forall_mem_map]
    refine ⟨fun edge hedge => ?_, fun line hline => newline_not_mem_styleLines hline⟩
    rw [newline_mem_edgeLine, not_or]
    exact h edge hedge
  obtain ⟨start, hstart⟩ := exists_splitOn_flatMap
    (["---".toList, "title: ".toList ++ plainText options.title.toList, "---".toList,
      "flowchart TB".toList, []] ++ records.nodes.map (nodeLine (assign records))) hlines
  refine ⟨start, ?_⟩
  rw [← hstart, draw, lines]
  simp only [List.append_assoc, List.cons_append, List.nil_append]

/-- Behind a blank line the statements of edges are read as their links. -/
theorem mapM_readLink?_lastBlock (records : Records) (start : List (List Char))
    (edges : List EdgeRecord) :
    (lastBlock (start ++ [] :: edges.map (edgeLine (assign records)))).mapM readLink? =
      some (edges.map (linkOf (assign records))) := by
  have hblock : [] ∉ edges.map (edgeLine (assign records)) := by
    simp [edgeLine_ne_nil]
  rw [lastBlock_append hblock, List.mapM_map]
  refine mapM_eq_pure fun edge _ => ?_
  rw [Function.comp_apply, readLink?_edgeLine]
  rfl

/-- If nothing stands behind the statements of edges, then the last line colours nothing. It is
blank if there are no edges. -/
theorem getLast?_bind_readStyle? (records : Records) (start : List (List Char))
    (edges : List EdgeRecord) :
    (start ++ [] :: edges.map (edgeLine (assign records))).getLast?.bind readStyle? = none := by
  rcases List.eq_nil_or_concat edges with rfl | ⟨init, last, rfl⟩
  · -- the last line is the blank one
    rw [List.map_nil, List.getLast?_concat]
    rfl
  · -- the last line is the statement of an edge
    rw [List.concat_eq_append, List.map_append, ← List.cons_append, ← List.append_assoc,
      List.map_singleton, List.getLast?_concat, Option.bind_some, readStyle?_edgeLine]

/-- **A chart is read as the relations of its records.** -/
theorem readRelations?_draw {records : Records} (options : DrawingOptions)
    (h : ∀ edge ∈ records.edges, '\n' ∉ edge.source.toList ∧ '\n' ∉ edge.destination.toList) :
    readRelations? (draw records options) = some (relationsOf records) := by
  obtain ⟨start, hstart⟩ := exists_splitOn_draw options h
  rw [readRelations?, hstart, List.dropLast_concat, styleLines_eq, relationsOf]
  by_cases hnone : forbiddenPositions records.edges = []
  · -- nothing is coloured, so the links stand at the end
    rw [if_pos hnone, if_pos hnone, List.append_nil, getLast?_bind_readStyle?]
    dsimp only
    rw [mapM_readLink?_lastBlock]
    rfl
  · -- behind the links stand a blank line and the one that colours them
    have hsplit : start ++ [] :: (records.edges.map (edgeLine (assign records)) ++
          [[], styleLine (forbiddenPositions records.edges)]) =
        (start ++ [] :: records.edges.map (edgeLine (assign records)) ++ [[]]) ++
          [styleLine (forbiddenPositions records.edges)] := by
      simp only [List.append_assoc, List.cons_append, List.nil_append]
    rw [if_neg hnone, if_neg hnone, hsplit, List.getLast?_concat, List.dropLast_concat,
      List.dropLast_concat, Option.bind_some, readStyle?_styleLine hnone]
    dsimp only
    rw [mapM_readLink?_lastBlock]
    rfl

/-- **One statement of a chart colours links**, if there are links to colour, and otherwise none
does. -/
theorem filterMap_readStyle?_lines (records : Records) (options : DrawingOptions) :
    (lines records options).filterMap readStyle? = (relationsOf records).coloured.toList := by
  have htitle : readStyle? ("title: ".toList ++ plainText options.title.toList) = none := by
    rw [Option.eq_none_iff_forall_ne_some]
    intro positions hread
    -- the title begins with a letter, and not with a blank
    obtain ⟨rest, hline⟩ := exists_of_readStyle? hread
    simp at hline
  -- neither a node nor an edge nor a line of the head colours links
  have hnodes : (records.nodes.map (nodeLine (assign records))).filterMap readStyle? = [] := by
    rw [List.filterMap_eq_nil_iff, List.forall_mem_map]
    exact fun node _ => readStyle?_nodeLine records node
  have hedges : (records.edges.map (edgeLine (assign records))).filterMap readStyle? = [] := by
    rw [List.filterMap_eq_nil_iff, List.forall_mem_map]
    exact fun edge _ => readStyle?_edgeLine records edge
  have hnothing : readStyle? [] = none := by decide
  have hmark : readStyle? "---".toList = none := by decide
  have hkind : readStyle? "flowchart TB".toList = none := by decide
  simp only [lines, List.filterMap_append, hnodes, hedges, List.filterMap_cons, hmark, htitle,
    hkind, hnothing, List.filterMap_nil, List.nil_append, styleLines_eq, relationsOf]
  split
  · rfl
  · next hsome =>
    rw [List.filterMap_cons, hnothing, List.filterMap_cons, readStyle?_styleLine hsome]
    rfl

/-! ### Edges -/

theorem occurs_source {records : Records} {edge : EdgeRecord} (h : edge ∈ records.edges) :
    Occurs records edge.source := .inr ⟨edge, h, .inl rfl⟩

theorem occurs_destination {records : Records} {edge : EdgeRecord} (h : edge ∈ records.edges) :
    Occurs records edge.destination := .inr ⟨edge, h, .inr rfl⟩

/-- **An identifier is known by the one that it was given.** -/
theorem recordId?_get_assign {records : Records} {id : String} (h : Occurs records id) :
    (assign records).recordId? ((assign records).get id).toList = some id := by
  have hentry : (id, (assign records).get id) ∈ (assign records).assigned.entries :=
    Map.get?_eq_some.1 (get?_assign h)
  have hsome : ((assign records).assigned.entries.find? fun entry =>
      entry.2.toList = ((assign records).get id).toList).isSome = true :=
    List.find?_isSome.2 ⟨_, hentry, decide_eq_true rfl⟩
  obtain ⟨⟨id', shown⟩, hfound⟩ := Option.isSome_iff_exists.1 hsome
  have hshown : shown = (assign records).get id := by
    have hequal := List.find?_some hfound
    rwa [decide_eq_true_eq, String.toList_inj] at hequal
  -- both were given the same one
  have hsame : id' = id := by
    have hget := Map.get?_eq_some.2 (List.mem_of_find?_eq_some hfound)
    exact (serves_assign records).injective (hshown ▸ hget) (get?_assign h)
  rw [Assignment.recordId?, hfound, Option.map_some, hsame]

/-- **An edge is recovered from its link.** -/
theorem edge?_linkOf {records : Records} {edge : EdgeRecord} (h : edge ∈ records.edges) :
    (linkOf (assign records) edge).edge? (assign records) = some edge := by
  rw [Link.edge?, linkOf, recordId?_get_assign (occurs_source h),
    recordId?_get_assign (occurs_destination h)]
  rfl

/-- The positions that are coloured are in increasing order. -/
theorem forbiddenPositions_ascending (edges : List EdgeRecord) :
    (forbiddenPositions edges).Pairwise (· < ·) := by
  have hsublist : (forbiddenPositions edges).Sublist (edges.zipIdx.map Prod.snd) :=
    List.filter_sublist.map Prod.snd
  rw [List.zipIdx_map_snd] at hsublist
  exact List.Pairwise.sublist hsublist (List.pairwise_lt_range' 1)

/-- What a chart says of relations is what the edges of the records are: every edge has its link,
in their order, and what is coloured are the positions of forbidden links, if there are any. -/
structure Relations.Carry (relations : Relations) (records : Records) : Prop where
  /-- Every edge has its link, in the order of the records. -/
  links_eq : relations.links = records.edges.map (linkOf (assign records))
  /-- Something is coloured if some edge is forbidden. -/
  coloured_iff : relations.coloured.isSome = true ↔
    ∃ edge ∈ records.edges, edge.forbidden = true
  /-- The positions are in increasing order. -/
  ascending : ∀ positions ∈ relations.coloured, positions.Pairwise (· < ·)
  /-- They are those of the forbidden links. -/
  mem_iff : ∀ positions ∈ relations.coloured, ∀ i, i ∈ positions ↔
    ∃ link, relations.links[i]? = some link ∧ link.forbidden = true

/-- What is coloured are the positions of forbidden edges. -/
theorem eq_of_mem_coloured {records : Records} {positions : List Nat}
    (h : positions ∈ (relationsOf records).coloured) :
    positions = forbiddenPositions records.edges := by
  rw [relationsOf, Option.mem_def, Option.ite_none_left_eq_some] at h
  exact (Option.some.inj h.2).symm

/-- **The relations of records carry their edges.** -/
theorem carry_relationsOf (records : Records) : (relationsOf records).Carry records where
  links_eq := rfl
  coloured_iff := by
    rw [← forbiddenPositions_ne_nil_iff]
    simp [relationsOf]
  ascending positions hpositions := by
    rw [eq_of_mem_coloured hpositions]
    exact forbiddenPositions_ascending records.edges
  mem_iff positions hpositions i := by
    rw [eq_of_mem_coloured hpositions, mem_forbiddenPositions]
    simp [relationsOf, linkOf]

/-- The statement of a node begins with this identifier, and its box follows. -/
def Declares (records : Records) (node : NodeRecord) (shown : List Char) : Prop :=
  nodeLine (assign records) node =
    "  ".toList ++ shown ++ opening node ++ nodeLabel node ++ closing node

/-- A node is declared with the identifier that it was given. -/
theorem declares_iff {records : Records} {node : NodeRecord} {shown : List Char} :
    Declares records node shown ↔ ((assign records).get node.id).toList = shown := by
  rw [Declares, nodeLine_eq]
  simp only [List.append_left_inj, List.append_right_inj]

/-- A node is declared with the identifier of another one exactly if the two are the same. -/
theorem declares_get_assign_iff {records : Records} {node : NodeRecord} {id : String}
    (hnode : node ∈ records.nodes) (h : Occurs records id) :
    Declares records node ((assign records).get id).toList ↔ node.id = id := by
  rw [declares_iff, String.toList_inj]
  exact ⟨get_assign_injOn (.inl ⟨node, hnode, rfl⟩) h, fun heq => heq ▸ rfl⟩

/-- **The links of a chart carry the edges.** The ends of the edges must not have a line feed; what
is in title and labels does not matter. Behind the last line that these are in, the chart has a
blank line, the statement of every edge and what colours them. Read back they are the links of the
edges in their order, with the thick arrow for forbidden ones, and the positions that are coloured
are those of forbidden links in increasing order. One statement of the chart colours links if some
edge is forbidden, and otherwise none does. A node is declared with the identifier of an end of a
link exactly if it is the node at that end. So the edges of the records are recovered from the text
and the identifiers that were given out. -/
theorem draw_links {records : Records} (options : DrawingOptions)
    (h : ∀ edge ∈ records.edges, '\n' ∉ edge.source.toList ∧ '\n' ∉ edge.destination.toList) :
    (∃ start, (draw records options).splitOn '\n' = start ++
      [] :: (records.edges.map (edgeLine (assign records)) ++ styleLines records.edges) ++ [[]]) ∧
    (∃ relations, readRelations? (draw records options) = some relations ∧
      relations.Carry records ∧
      (lines records options).filterMap readStyle? = relations.coloured.toList) ∧
    (∀ node ∈ records.nodes, ∀ edge ∈ records.edges,
      (Declares records node (linkOf (assign records) edge).source ↔ node.id = edge.source) ∧
      (Declares records node (linkOf (assign records) edge).destination ↔
        node.id = edge.destination)) ∧
    recoverEdges? (assign records) (draw records options) = some records.edges := by
  refine ⟨exists_splitOn_draw options h, ⟨relationsOf records, readRelations?_draw options h,
    carry_relationsOf records, filterMap_readStyle?_lines records options⟩,
    fun node hnode edge hedge => ⟨?_, ?_⟩, ?_⟩
  · exact declares_get_assign_iff hnode (occurs_source hedge)
  · exact declares_get_assign_iff hnode (occurs_destination hedge)
  · rw [recoverEdges?, readRelations?_draw options h, Option.bind_eq_bind, Option.bind_some]
    exact mapM_map_eq_pure fun edge hedge => edge?_linkOf hedge

/-- Two edges are the same and forbidden, two of their ends have one plain form, one end is no node,
and the title has a line feed. -/
theorem draw_links_repeated :
    let records : Records := ⟨"1.0.0", "m", [⟨"m/a.b", some "b", "a.b", 0⟩],
      [⟨"m/a.b", "m/a-b", 1, true⟩, ⟨"m/a-b", "m/c d", 12, false⟩, ⟨"m/a.b", "m/a-b", 1, true⟩], []⟩
    let options : DrawingOptions := ⟨"dot", "two\nlines"⟩
    (∀ edge ∈ records.edges, '\n' ∉ edge.source.toList ∧ '\n' ∉ edge.destination.toList) ∧
      (readRelations? (draw records options)).bind Relations.coloured = some [0, 2] ∧
      recoverEdges? (assign records) (draw records options) = some records.edges := by
  intro records options
  have hends : ∀ edge ∈ records.edges,
      '\n' ∉ edge.source.toList ∧ '\n' ∉ edge.destination.toList := by decide
  exact ⟨hends, by decide +kernel, (draw_links options hends).2.2.2⟩

end PackageGraph.Mermaid
