import PackageGraph.Proofs.Mermaid.Identifier
import PackageGraph.Proofs.Text.Split

/-!
# What can be injected into a chart

A chart has one statement a line. What it takes from records and options stands in its statements:
the title, the identifiers, the directories and the names. Quotes are replaced in labels, so no
label ends before its box does. Line feeds are not replaced anywhere, and most of the characters
with a meaning in statements are kept in identifiers. `Mermaid.draw_contained` says which records
and options keep to their places all the same, and `Mermaid.draw_injected` has some that do not.
-/

namespace PackageGraph.Mermaid

open Sorted

/-! ### Texts of lines -/

/-- **A text of closed lines** has as many line feeds as lines if no line has one of its own. -/
theorem count_flatMap_eq_length_iff (lines : List (List Char)) :
    (lines.flatMap (· ++ ['\n'])).count '\n' = lines.length ↔ ∀ line ∈ lines, '\n' ∉ line := by
  have hcount : (lines.flatMap (· ++ ['\n'])).count '\n' =
      lines.length + (lines.map (List.count '\n')).sum := by
    induction lines with
    | nil => rfl
    | cons line lines ih =>
      rw [List.flatMap_cons, List.count_append, ih, List.count_append, List.map_cons,
        List.sum_cons, List.length_cons, List.count_singleton_self]
      omega
  rw [hcount, Nat.add_eq_left, List.sum_eq_zero_iff_forall_eq_nat]
  simp only [List.mem_map, forall_exists_index, and_imp, forall_apply_eq_imp_iff₂,
    List.count_eq_zero]

/-- **A text of closed lines is cut into these lines** if no line has a line feed of its own. -/
theorem splitOn_flatMap_iff (lines : List (List Char)) :
    (lines.flatMap (· ++ ['\n'])).splitOn '\n' = lines ++ [[]] ↔ ∀ line ∈ lines, '\n' ∉ line := by
  constructor
  · -- cutting gives one piece more than there are line feeds, so each line has one at its end only
    intro h
    have hlength := Text.length_splitOn '\n' (lines.flatMap (· ++ ['\n']))
    rw [h, List.length_append, List.length_singleton] at hlength
    exact (count_flatMap_eq_length_iff lines).1 (Nat.succ.inj hlength).symm
  · intro h
    induction lines with
    | nil => rfl
    | cons line lines ih =>
      obtain ⟨hline, hlines⟩ := List.forall_mem_cons.1 h
      rw [List.flatMap_cons, List.append_assoc, List.singleton_append,
        List.splitOn_append_cons_self_of_not_mem hline, ih hlines]
      rfl

/-! ### Labels -/

theorem quote_not_mem_plainText (cs : List Char) : '"' ∉ plainText cs := by
  simp only [plainText, List.mem_flatMap, not_exists, not_and]
  intro c _
  split
  · decide
  · next hc => simpa using Ne.symm hc

/-- A line feed is left where it was, and none is made. -/
theorem newline_mem_plainText {cs : List Char} : '\n' ∈ plainText cs ↔ '\n' ∈ cs := by
  simp only [plainText, List.mem_flatMap]
  constructor
  · rintro ⟨c, hc, hmem⟩
    split at hmem
    · exact absurd hmem (by decide)
    · rwa [List.mem_singleton.1 hmem]
  · exact fun h => ⟨'\n', h, by simp⟩

/-- What stands in the box of a node. -/
def nodeLabel (node : NodeRecord) : List Char :=
  if node.isGroup then
    plainText node.directory.toList ++ "<br/>".toList ++ Text.decimal node.containedPackages ++
      " packages".toList
  else
    plainText (node.displayName.getD "").toList ++ "<br/>".toList ++
      plainText node.directory.toList

/-- How the box of a node begins, with the quote of its label. -/
def opening (node : NodeRecord) : List Char :=
  if node.isGroup then "[[\"".toList else "[\"".toList

/-- How the box of a node ends. -/
def closing (node : NodeRecord) : List Char :=
  if node.isGroup then "\"]]".toList else "\"]".toList

/-- The statement of a node is its identifier and its box. -/
theorem nodeLine_eq (ids : Assignment) (node : NodeRecord) :
    nodeLine ids node = "  ".toList ++ (ids.get node.id).toList ++ opening node ++ nodeLabel node ++
      closing node := by
  rw [nodeLine, opening, nodeLabel, closing]
  cases node.isGroup <;> simp

/-- **A label has no quote**, so it ends where its box does. -/
theorem quote_not_mem_nodeLabel (node : NodeRecord) : '"' ∉ nodeLabel node := by
  rw [nodeLabel]
  split
  · simp [quote_not_mem_plainText, Text.not_mem_decimal]
  · simp [quote_not_mem_plainText]

/-! ### Statements -/

/-- Nothing that a chart takes from records and options has a line feed. A group shows no name. -/
structure OneLine (records : Records) (options : DrawingOptions) : Prop where
  /-- The title is one line. -/
  title : '\n' ∉ options.title.toList
  /-- So is the identifier of every node. -/
  ids : ∀ node ∈ records.nodes, '\n' ∉ node.id.toList
  /-- So is the directory of every node. -/
  directories : ∀ node ∈ records.nodes, '\n' ∉ node.directory.toList
  /-- So is the name of every node that shows it. -/
  names : ∀ node ∈ records.nodes, node.isGroup = false → '\n' ∉ (node.displayName.getD "").toList
  /-- So are both ends of every edge. -/
  ends : ∀ edge ∈ records.edges, '\n' ∉ edge.source.toList ∧ '\n' ∉ edge.destination.toList

/-- A line feed in an identifier is kept. -/
theorem newline_mem_get_assign {records : Records} {id : String} :
    '\n' ∈ ((assign records).get id).toList ↔ '\n' ∈ id.toList := by
  rw [mem_get_assign (by decide)]
  exact and_iff_left (by decide)

/-- The statement of a node has a line feed if its identifier, its directory or the name that it
shows has one. -/
theorem newline_mem_nodeLine {records : Records} {node : NodeRecord} :
    '\n' ∈ nodeLine (assign records) node ↔ '\n' ∈ node.id.toList ∨ '\n' ∈ node.directory.toList ∨
      node.isGroup = false ∧ '\n' ∈ (node.displayName.getD "").toList := by
  rw [nodeLine_eq, opening, nodeLabel, closing]
  cases node.isGroup <;>
    simp [newline_mem_get_assign, newline_mem_plainText, Text.not_mem_decimal, or_comm]

/-- The statement of an edge has a line feed if one of its ends has one. -/
theorem newline_mem_edgeLine {records : Records} {edge : EdgeRecord} :
    '\n' ∈ edgeLine (assign records) edge ↔
      '\n' ∈ edge.source.toList ∨ '\n' ∈ edge.destination.toList := by
  rw [edgeLine, arrow]
  cases edge.forbidden <;> simp [newline_mem_get_assign, Text.not_mem_decimal]

/-! ### Coloured links -/

/-- The positions that are coloured are those of forbidden edges. -/
theorem mem_forbiddenPositions {edges : List EdgeRecord} {i : Nat} :
    i ∈ forbiddenPositions edges ↔ ∃ edge, edges[i]? = some edge ∧ edge.forbidden = true := by
  simp only [forbiddenPositions, List.mem_map, List.mem_filter, Prod.exists,
    List.mk_mem_zipIdx_iff_getElem?, exists_eq_right]

/-- Something is coloured if some edge is forbidden. -/
theorem forbiddenPositions_ne_nil_iff {edges : List EdgeRecord} :
    forbiddenPositions edges ≠ [] ↔ ∃ edge ∈ edges, edge.forbidden = true := by
  constructor
  · intro hne
    obtain ⟨i, hi⟩ := List.exists_mem_of_ne_nil _ hne
    obtain ⟨edge, hedge, hforbidden⟩ := mem_forbiddenPositions.1 hi
    exact ⟨edge, List.mem_of_getElem? hedge, hforbidden⟩
  · rintro ⟨edge, hmem, hforbidden⟩
    obtain ⟨i, hi⟩ := List.mem_iff_getElem?.1 hmem
    exact List.ne_nil_of_mem (mem_forbiddenPositions.2 ⟨edge, hi, hforbidden⟩)

/-- The statement that colours the links in some positions. -/
def styleLine (positions : List Nat) : List Char :=
  "  linkStyle ".toList ++ [','].intercalate (positions.map Text.decimal) ++
    " stroke:red,stroke-width:2px".toList

/-- Links are coloured if some of them are forbidden. -/
theorem styleLines_eq (edges : List EdgeRecord) :
    styleLines edges =
      if forbiddenPositions edges = [] then [] else [[], styleLine (forbiddenPositions edges)] := by
  rw [styleLines]
  cases forbiddenPositions edges with
  | nil => rw [if_pos rfl]
  | cons position positions =>
    rw [if_neg (List.cons_ne_nil position positions)]
    rfl

/-- Numbers with separators between them are made of digits and separators. -/
theorem not_mem_intercalate_decimal {c separator : Char} (hdigit : c.isDigit = false)
    (hne : c ≠ separator) (numbers : List Nat) :
    c ∉ [separator].intercalate (numbers.map Text.decimal) := by
  induction numbers with
  | nil => simp
  | cons number numbers ih =>
    cases numbers with
    | nil => simpa using Text.not_mem_decimal hdigit number
    | cons next rest =>
      rw [List.map_cons, List.map_cons, List.intercalate_cons_cons, ← List.map_cons]
      simp only [List.mem_append, List.mem_singleton, not_or]
      exact ⟨⟨Text.not_mem_decimal hdigit number, hne⟩, ih⟩

theorem newline_not_mem_styleLines {edges : List EdgeRecord} {line : List Char}
    (h : line ∈ styleLines edges) : '\n' ∉ line := by
  rw [styleLines_eq] at h
  split at h
  · exact absurd h List.not_mem_nil
  · have hpositions : '\n' ∉ [','].intercalate ((forbiddenPositions edges).map Text.decimal) :=
      not_mem_intercalate_decimal (by decide) (by decide) _
    rcases List.mem_cons.1 h with rfl | h
    · exact List.not_mem_nil
    · rw [List.mem_singleton.1 h]
      unfold styleLine
      simp [hpositions]

theorem length_styleLines (edges : List EdgeRecord) :
    (styleLines edges).length = if edges.any (·.forbidden) then 2 else 0 := by
  have hany : edges.any (·.forbidden) = true ↔ forbiddenPositions edges ≠ [] := by
    rw [List.any_eq_true, forbiddenPositions_ne_nil_iff]
  simp only [styleLines_eq, hany]
  by_cases hnone : forbiddenPositions edges = []
  · rw [if_pos hnone, if_neg (not_not_intro hnone)]
    rfl
  · rw [if_neg hnone, if_pos hnone]
    rfl

/-! ### The chart -/

/-- The number of lines that a chart of these records should have. -/
def lineCount (records : Records) : Nat :=
  6 + records.nodes.length + records.edges.length +
    if records.edges.any (·.forbidden) then 2 else 0

/-- **A chart has the number of lines that it should have.** -/
theorem length_lines (records : Records) (options : DrawingOptions) :
    (lines records options).length = lineCount records := by
  simp only [lines, List.length_append, List.length_map, List.length_cons, List.length_nil,
    length_styleLines, lineCount]
  omega

/-- **No statement runs over a line** if records and options have no line feed. -/
theorem forall_mem_lines_iff {records : Records} {options : DrawingOptions} :
    (∀ line ∈ lines records options, '\n' ∉ line) ↔ OneLine records options := by
  have htitle : '\n' ∉ "title: ".toList ++ plainText options.title.toList ↔
      '\n' ∉ options.title.toList := by
    simp [newline_mem_plainText]
  simp only [lines, List.forall_mem_append, List.forall_mem_cons, List.forall_mem_map, htitle,
    newline_mem_nodeLine, newline_mem_edgeLine, not_or, not_and]
  constructor
  · -- each text stands in some line
    rintro ⟨⟨⟨⟨⟨-, htitle, -⟩, hnodes⟩, -⟩, hedges⟩, -⟩
    exact ⟨htitle, fun node hnode => (hnodes node hnode).1,
      fun node hnode => (hnodes node hnode).2.1, fun node hnode => (hnodes node hnode).2.2, hedges⟩
  · -- the other lines are always the same, or made of numbers
    intro h
    exact ⟨⟨⟨⟨⟨by decide, h.title, by decide, by decide, by decide, nofun⟩,
      fun node hnode => ⟨h.ids node hnode, h.directories node hnode, h.names node hnode⟩⟩,
      by decide, nofun⟩, h.ends⟩, fun line hline => newline_not_mem_styleLines hline⟩

/-- **What can be injected into a chart.** In any chart the box of every node holds one label, and
no quote stands in it. The chart has as many lines as it should have exactly when neither the title
nor a node nor an edge brings a line feed along, and this is also when cutting it at its line feeds
gives its statements. The identifiers of the chart are free of blanks and structural characters
exactly when those of the records are, but for spaces. -/
theorem draw_contained (records : Records) (options : DrawingOptions) :
    (∀ node, nodeLine (assign records) node = "  ".toList ++
        ((assign records).get node.id).toList ++ opening node ++ nodeLabel node ++ closing node ∧
      '"' ∉ nodeLabel node) ∧
    ((draw records options).count '\n' = lineCount records ↔ OneLine records options) ∧
    ((draw records options).splitOn '\n' = lines records options ++ [[]] ↔
      OneLine records options) ∧
    ((∀ id, (allIds records).contains id = true → IsSafe ((assign records).get id)) ↔
      ∀ id, (allIds records).contains id = true →
        ∀ c ∈ id.toList, isUnsafe c = true → c = ' ') := by
  refine ⟨fun node => ⟨nodeLine_eq _ node, quote_not_mem_nodeLabel node⟩, ?_, ?_, ?_⟩
  · -- counting the line feeds
    rw [← length_lines records options, draw, count_flatMap_eq_length_iff, forall_mem_lines_iff]
  · -- cutting at the line feeds
    rw [draw, splitOn_flatMap_iff, forall_mem_lines_iff]
  · exact forall_congr' fun id => forall_congr' fun _ => isSafe_get_assign

/-- A title of two lines, and a package in a directory with a bracket in its name: the chart has a
line too many, and an identifier that begins a box. -/
theorem draw_injected :
    let records : Records := ⟨"1.0.0", "m", [⟨"m/a[b", some "a", "a[b", 0⟩], [], []⟩
    let options : DrawingOptions := ⟨"dot", "two\nlines"⟩
    (draw records options).count '\n' ≠ lineCount records ∧
      ¬∀ id, (allIds records).contains id = true → IsSafe ((assign records).get id) := by
  intro records options
  refine ⟨by decide +kernel, fun h => ?_⟩
  have hbracket : isUnsafe '[' = false :=
    h "m/a[b" (by decide +kernel) '[' (by decide +kernel)
  exact absurd hbracket (by decide)

end PackageGraph.Mermaid
