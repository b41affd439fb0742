import PackageGraph.Go.Usage
import PackageGraph.Proofs.Path.Segments
import PackageGraph.Proofs.Sorted.Gather
import PackageGraph.Proofs.Text.Trim

/-!
# Imports and their aliases

What an alias stands for in a file, said without the map that is kept of it: the imports of a file
are listed in the order in which they stand there (`Tree.imports`), each of them declares a qualifier
for its path or none (`Import.Declares`), and a qualifier means the path of the last import that
declares it (`Tree.Means`). The map holds just that (`Tree.get?_aliases`).

An import without a name declares the last segment of its path. Paths are written in quotes, which
may be of either kind and more than one on each side.
-/

namespace PackageGraph

namespace Go

/-! ### Quotes -/

/-- The path stands in the literal between quotes, and neither begins nor ends with another one. -/
def Quoted (literal path : String) : Prop :=
  ∃ before after : List Char, literal.toList = before ++ path.toList ++ after ∧
    (∀ c ∈ before ++ after, c = '"' ∨ c = Literal.rawMark) ∧
    (∀ c ∈ path.toList.head?, c ≠ '"' ∧ c ≠ Literal.rawMark) ∧
    ∀ c ∈ path.toList.getLast?, c ≠ '"' ∧ c ≠ Literal.rawMark

theorem isQuote_eq_true {c : Char} : isQuote c = true ↔ c = '"' ∨ c = Literal.rawMark := by
  simp [isQuote]

theorem isQuote_eq_false {c : Char} : isQuote c = false ↔ c ≠ '"' ∧ c ≠ Literal.rawMark := by
  simp [isQuote]

/-- **Taking the quotes off a literal** gives the path that stands between them. -/
theorem unquoted_eq_iff {literal path : String} : unquoted literal = path ↔ Quoted literal path := by
  simp only [Quoted, ← isQuote_eq_true, ← isQuote_eq_false]
  constructor
  · -- what is cut off at both ends are quotes, and none is left there
    rintro rfl
    obtain ⟨before, after, hcs, hbefore, hafter, hhead, hlast⟩ :=
      Text.exists_append_trimMatches isQuote literal.toList
    rw [unquoted, String.toList_ofList]
    refine ⟨before, after, hcs, fun c hc => ?_, hhead, hlast⟩
    exact (List.mem_append.1 hc).elim (hbefore c) (hafter c)
  · -- all quotes are cut off, and the path has none at its ends to lose
    rintro ⟨before, after, hcs, hquotes, hhead, hlast⟩
    have hbefore := fun c hc => hquotes c (List.mem_append_left after hc)
    have hafter := fun c hc => hquotes c (List.mem_append_right before hc)
    rw [unquoted, hcs, Text.trimMatches_append hbefore hafter hhead hlast, String.ofList_toList]

/-! ### Last segments -/

/-- The name is what follows the last slash of the path, or all of it if there is none. -/
def LastSegment (path name : String) : Prop :=
  '/' ∉ name.toList ∧ (path = name ∨ ∃ directory, path = directory ++ "/" ++ name)

theorem exists_lastSegment (path : String) : ∃ name, LastSegment path name := by
  by_cases hslash : '/' ∈ path.toList
  · -- the first slash from the end is the last one
    obtain ⟨after, before, hreverse, hafter⟩ :=
      List.eq_append_cons_of_mem (List.mem_reverse.2 hslash)
    refine ⟨.ofList after.reverse, by simpa using hafter, .inr ⟨.ofList before.reverse, ?_⟩⟩
    refine String.toList_inj.1 ?_
    simpa using congrArg List.reverse hreverse
  · exact ⟨path, hslash, .inl rfl⟩

/-- An import without a name is known by the last segment of its path. -/
theorem defaultAlias_eq_iff {path name : String} :
    defaultAlias path = name ↔ LastSegment path name := by
  -- a path has one last segment only, so one direction is enough
  have hlast : ∀ {name : String}, LastSegment path name → defaultAlias path = name := by
    rintro name ⟨hslash, rfl | ⟨directory, rfl⟩⟩
    · rw [defaultAlias, Path.segments, List.splitOn_eq_singleton hslash]
      simp
    · rw [defaultAlias, Path.segments_append, Path.segments, Path.segments,
        List.splitOn_eq_singleton hslash]
      simp
  refine ⟨?_, hlast⟩
  rintro rfl
  obtain ⟨name, hname⟩ := exists_lastSegment path
  rwa [hlast hname]

/-! ### Single imports -/

/-- One import: the name it is given, if any, and its path as it is written. -/
structure Import where
  name : Option String
  literal : String
deriving DecidableEq

/-- The import declares a qualifier for its path: the name it is given, or else the last segment of
the path. Three names declare nothing, since no qualifier has them. -/
structure Import.Declares (spec : Import) (qualifier path : String) : Prop where
  quoted : Quoted spec.literal path
  named : match spec.name with
    | some name => name = qualifier
    | none => LastSegment path qualifier
  usable : qualifier ≠ "_" ∧ qualifier ≠ "." ∧ qualifier ≠ ""

/-- Three names declare nothing. -/
theorem isUnnamed_eq_false_iff {name : String} :
    isUnnamed name = false ↔ name ≠ "_" ∧ name ≠ "." ∧ name ≠ "" := by
  simp [isUnnamed, and_assoc]

/-- What the map of aliases keeps of an import. -/
def Import.alias? (spec : Import) : Option (String × String) :=
  aliasOf? (.importSpec spec.name spec.literal)

/-- **The alias that is kept of an import** is the qualifier that it declares. -/
theorem Import.alias?_eq_some {spec : Import} {qualifier path : String} :
    spec.alias? = some (qualifier, path) ↔ spec.Declares qualifier path := by
  obtain ⟨name, literal⟩ := spec
  -- a name that is given comes before the one that the path suggests
  have hnamed : ∀ {path : String}, name.getD (defaultAlias path) = qualifier ↔
      match name with
      | some name => name = qualifier
      | none => LastSegment path qualifier := by
    intro path
    cases name with
    | some name => rfl
    | none => exact defaultAlias_eq_iff
  rw [alias?, aliasOf?]
  constructor
  · intro h
    dsimp only at h
    split at h
    · cases h
    · next husable =>
      simp only [Option.some.injEq, Prod.mk.injEq] at h
      obtain ⟨hname, rfl⟩ := h
      refine ⟨unquoted_eq_iff.1 rfl, hnamed.1 hname, ?_⟩
      rw [← isUnnamed_eq_false_iff, ← hname]
      simpa using husable
  · rintro ⟨hquoted, hname, husable⟩
    obtain rfl := unquoted_eq_iff.2 hquoted
    obtain rfl := hnamed.2 hname
    dsimp only
    rw [if_neg (by simp [isUnnamed_eq_false_iff.2 husable])]

/-! ### The imports of a file -/

namespace Tree

/-- The import that a node stands for. -/
def import? : Tree → Option Import
  | node (.importSpec name literal) _ => some ⟨name, literal⟩
  | _ => none

/-- The imports that a part of a declaration holds: one alone, or a group. -/
def groupedImports : Tree → List Import
  | node (.form .importList) specs => specs.filterMap import?
  | tree => tree.import?.toList

/-- The imports of an import declaration; nothing else declares any. -/
def declaredImports : Tree → List Import
  | node (.form .importDeclaration) parts => parts.flatMap groupedImports
  | _ => []

/-- The imports of a file, in the order in which they stand there. -/
def imports (file : Tree) : List Import := file.children.flatMap declaredImports

/-- **What a qualifier refers to in a file**: the path of the last import that declares it, wherever
in the file it is used. -/
def Means (file : Tree) (qualifier path : String) : Prop :=
  ∃ before spec after, file.imports = before ++ spec :: after ∧ spec.Declares qualifier path ∧
    ∀ later ∈ after, ∀ path, ¬ later.Declares qualifier path

/-- The alias of a node is that of its import; a node that is none has no alias. -/
theorem aliasOf?_label (tree : Tree) :
    aliasOf? tree.label = tree.import?.bind Import.alias? := by
  obtain ⟨label, children⟩ := tree
  cases label <;> rfl

/-- The nodes of a part have the aliases of its imports. -/
theorem filterMap_importNodes (part : Tree) :
    (importNodes part).filterMap (fun spec => aliasOf? spec.label) =
      (groupedImports part).filterMap Import.alias? := by
  simp only [aliasOf?_label]
  obtain ⟨label, children⟩ := part
  by_cases hgroup : label = .form .importList
  · subst hgroup
    rw [importNodes, groupedImports, List.filterMap_filterMap]
  · -- a part that is no group is looked at itself
    have halone : ∀ specs, node label children ≠ node (.form .importList) specs := by
      rintro specs ⟨⟩
      exact hgroup rfl
    rw [importNodes, groupedImports]
    · rw [List.filterMap_cons, List.filterMap_nil]
      cases (node label children).import? with
      | none => rfl
      | some spec => rw [Option.bind_some, Option.toList_some, List.filterMap_cons, List.filterMap_nil]
    · exact halone
    · exact halone

/-- A declaration declares the aliases of its imports. -/
theorem declaredAliases_eq (declaration : Tree) :
    declaredAliases declaration = (declaredImports declaration).filterMap Import.alias? := by
  obtain ⟨label, parts⟩ := declaration
  by_cases himport : label = .form .importDeclaration
  · subst himport
    rw [declaredAliases, declaredImports, List.filterMap_flatMap, List.filterMap_flatMap]
    exact List.flatMap_congr fun part _ => filterMap_importNodes part
  · -- any other declaration declares none
    have hother : ∀ parts', node label parts ≠ node (.form .importDeclaration) parts' := by
      rintro parts' ⟨⟩
      exact himport rfl
    rw [declaredAliases, declaredImports]
    · rfl
    · exact hother
    · exact hother

/-- **The map of aliases holds what each qualifier refers to.** -/
theorem get?_aliases {file : Tree} {qualifier path : String} :
    file.aliases.get? qualifier = some path ↔ file.Means qualifier path := by
  -- the map is made from the aliases of all imports, in order
  have hdeclared : file.children.flatMap declaredAliases =
      file.imports.filterMap Import.alias? := by
    rw [imports, List.filterMap_flatMap]
    exact List.flatMap_congr fun declaration _ => declaredAliases_eq declaration
  rw [aliases, hdeclared, Sorted.Map.get?_foldl_insert]
  constructor
  · -- the last alias of the qualifier is that of an import, and no later import declares it
    rintro (⟨before, after, hitems, hafter⟩ | ⟨-, hnone⟩)
    · obtain ⟨specs, others, hspecs, -, hothers⟩ := List.filterMap_eq_append_iff.1 hitems
      obtain ⟨undeclared, spec, rest, rfl, -, hspec, rfl⟩ := List.filterMap_eq_cons_iff.1 hothers
      refine ⟨specs ++ undeclared, spec, rest, by rw [hspecs, List.append_assoc],
        Import.alias?_eq_some.1 hspec, fun later hlater path hdeclares => hafter ?_⟩
      exact List.mem_map.2 ⟨(qualifier, path),
        List.mem_filterMap.2 ⟨later, hlater, Import.alias?_eq_some.2 hdeclares⟩, rfl⟩
    · cases hnone
  · -- the last import that declares the qualifier has the last alias
    rintro ⟨before, spec, after, himports, hspec, hafter⟩
    refine .inl ⟨before.filterMap Import.alias?, after.filterMap Import.alias?, ?_, ?_⟩
    · rw [himports, List.filterMap_append, List.filterMap_cons, Import.alias?_eq_some.2 hspec]
    · intro hmem
      obtain ⟨⟨_, path⟩, hpath, rfl⟩ := List.mem_map.1 hmem
      obtain ⟨later, hlater, hdeclares⟩ := List.mem_filterMap.1 hpath
      exact hafter later hlater path (Import.alias?_eq_some.1 hdeclares)

end Tree

end Go

end PackageGraph
