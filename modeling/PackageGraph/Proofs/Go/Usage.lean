import PackageGraph.Proofs.Fact.Usage
import PackageGraph.Proofs.Go.Imports
import PackageGraph.Proofs.Go.Walk

/-!
# The usage of a file is exact

What is read off a file is said here of its tree alone: the package is that of the last clause
(`Tree.LastClause`), and a symbol is used through a path if some node at any depth refers to it by
a qualifier that means the path (`Tree.Uses`). The usage that is returned has these symbols and no
others, and no path without symbols (`Usage.ofTree_exact`).

Whether a node is recorded depends on the node and on the aliases of the whole file, not on what
was recorded before; so what a walk records is what its nodes record one by one
(`Tree.uses_foldl_recordReference`).
-/

namespace PackageGraph.Go

open Sorted

namespace Tree

/-! ### The package clause -/

/-- The node is a package clause. -/
def IsClause (tree : Tree) : Prop := ∃ name below, tree = node (.packageClause name) below

/-- The last package clause of the file has the name. -/
def LastClause (file : Tree) (name : String) : Prop :=
  ∃ before below after, file.children = before ++ node (.packageClause name) below :: after ∧
    ∀ tree ∈ after, ¬ tree.IsClause

/-- The name of a package is read off a clause. -/
theorem packageName?_eq_some {tree : Tree} {name : String} :
    tree.packageName? = some name ↔ ∃ below, tree = node (.packageClause name) below := by
  obtain ⟨label, children⟩ := tree
  cases label <;> simp [packageName?]

theorem packageName?_eq_none {tree : Tree} : tree.packageName? = none ↔ ¬ tree.IsClause := by
  rw [Option.eq_none_iff_forall_ne_some]
  simp only [ne_eq, packageName?_eq_some, IsClause, not_exists]

theorem package?_eq_none {file : Tree} :
    file.package? = none ↔ ∀ tree ∈ file.children, ¬ tree.IsClause := by
  rw [package?, List.getLast?_eq_none_iff, List.filterMap_eq_nil_iff]
  simp only [packageName?_eq_none]

/-- **The last clause names the package.** -/
theorem package?_eq_some {file : Tree} {name : String} :
    file.package? = some name ↔ file.LastClause name := by
  rw [package?, List.getLast?_eq_some_iff]
  constructor
  · -- the last name is that of a clause, and no clause comes after it
    rintro ⟨names, hnames⟩
    obtain ⟨front, back, hchildren, -, hback⟩ := List.filterMap_eq_append_iff.1 hnames
    obtain ⟨others, clause, after, rfl, -, hclause, hafter⟩ := List.filterMap_eq_cons_iff.1 hback
    obtain ⟨below, rfl⟩ := packageName?_eq_some.1 hclause
    refine ⟨front ++ others, below, after, by rw [hchildren, List.append_assoc], fun tree htree => ?_⟩
    exact packageName?_eq_none.1 (List.filterMap_eq_nil_iff.1 hafter tree htree)
  · -- the last clause has the last name
    rintro ⟨before, below, after, hchildren, hafter⟩
    refine ⟨before.filterMap packageName?, ?_⟩
    have hnone : after.filterMap packageName? = [] :=
      List.filterMap_eq_nil_iff.2 fun tree htree => packageName?_eq_none.2 (hafter tree htree)
    rw [hchildren, List.filterMap_append, List.filterMap_cons, hnone]
    rfl

/-! ### References -/

/-- The node refers to a symbol behind a qualifier: as a field of a bare identifier, or as a type of
another package. -/
inductive Refers : Tree → (qualifier symbol : String) → Prop where
  | selector (qualifier symbol : String) (below : List Tree) :
    Refers (node (.selector symbol) [node (.identifier qualifier) below]) qualifier symbol
  | qualifiedType (qualifier symbol : String) (below : List Tree) :
    Refers (node (.qualifiedType qualifier symbol) below) qualifier symbol

/-- **A reference is read off a node that refers to a symbol**, in one of the two ways. -/
theorem reference?_eq_some {tree : Tree} {qualifier symbol : String} :
    tree.reference? = some (qualifier, symbol) ↔ tree.Refers qualifier symbol := by
  constructor
  · intro h
    rw [reference?.eq_def] at h
    split at h
    · cases h
      exact .selector ..
    · cases h
      exact .qualifiedType ..
    · -- nothing else refers to a symbol
      cases h
  · rintro (_ | _)
    · rfl
    · rfl

/-- **The file uses the symbol through the path**: some node at any depth refers to it by a
qualifier that means the path. -/
def Uses (file : Tree) (path symbol : String) : Prop :=
  ∃ target qualifier, Within target file ∧ target.Refers qualifier symbol ∧
    file.Means qualifier path

/-- The path and the symbol that a node is recorded with. -/
def resolved? (aliases : Map String String) (tree : Tree) : Option (String × String) :=
  tree.reference?.bind fun reference =>
    (aliases.get? reference.1).map fun path => (path, reference.2)

/-- A node is recorded for the path that its qualifier is an alias of. -/
theorem resolved?_eq_some {aliases : Map String String} {tree : Tree} {path symbol : String} :
    tree.resolved? aliases = some (path, symbol) ↔
      ∃ qualifier, tree.Refers qualifier symbol ∧ aliases.get? qualifier = some path := by
  simp only [resolved?, ← reference?_eq_some, Option.bind_eq_some_iff, Option.map_eq_some_iff,
    Prod.mk.injEq]
  constructor
  · rintro ⟨⟨qualifier, symbol⟩, hreference, path, halias, rfl, rfl⟩
    exact ⟨qualifier, hreference, halias⟩
  · rintro ⟨qualifier, hreference, halias⟩
    exact ⟨(qualifier, symbol), hreference, path, halias, rfl, rfl⟩

/-- What is recorded of a node is known from the node and the aliases. -/
theorem recordReference_eq (aliases : Map String String) (usage : ImportUsage) (tree : Tree) :
    recordReference aliases usage tree =
      (tree.resolved? aliases).elim usage fun found => usage.record found.1 [found.2] := by
  rw [recordReference, resolved?]
  cases tree.reference? with
  | none => rfl
  | some reference =>
    obtain ⟨qualifier, symbol⟩ := reference
    dsimp only
    rw [Option.bind_some]
    cases aliases.get? qualifier <;> rfl

/-! ### The walk -/

section Walk

variable {aliases : Map String String} {usage : ImportUsage} {path symbol : String}

/-- A node adds the symbol that it refers to. -/
theorem uses_recordReference {tree : Tree} :
    (recordReference aliases usage tree).Uses path symbol ↔
      usage.Uses path symbol ∨ tree.resolved? aliases = some (path, symbol) := by
  rw [recordReference_eq]
  cases tree.resolved? aliases with
  | none => simp
  | some found =>
    obtain ⟨path', symbol'⟩ := found
    simp [ImportUsage.uses_record, eq_comm]

/-- A node is recorded with a symbol or not at all. -/
theorem occupied_recordReference (h : usage.Occupied) (tree : Tree) :
    (recordReference aliases usage tree).Occupied := by
  rw [recordReference_eq]
  cases tree.resolved? aliases with
  | none => exact h
  | some found => exact h.record found.1 found.2

/-- **Nodes add the symbols that they refer to, each its own.** -/
theorem uses_foldl_recordReference {trees : List Tree} :
    (trees.foldl (recordReference aliases) usage).Uses path symbol ↔
      usage.Uses path symbol ∨ ∃ tree ∈ trees, tree.resolved? aliases = some (path, symbol) := by
  induction trees generalizing usage with
  | nil => simp
  | cons tree trees ih =>
    rw [List.foldl_cons, ih, uses_recordReference, or_assoc, List.exists_mem_cons_iff]

theorem occupied_foldl_recordReference (h : usage.Occupied) (trees : List Tree) :
    (trees.foldl (recordReference aliases) usage).Occupied := by
  induction trees generalizing usage with
  | nil => exact h
  | cons tree trees ih => exact ih (occupied_recordReference h tree)

end Walk

/-! ### Whole files -/

section File

variable {file : Tree} {path symbol : String}

/-- **The symbols that are read off a file** are those that it uses. -/
theorem uses_usage : file.usage.Uses path symbol ↔ file.Uses path symbol := by
  rw [usage, Cursor.walk_atRoot, uses_foldl_recordReference,
    or_iff_right (ImportUsage.not_uses_empty path symbol)]
  simp only [mem_preorder, resolved?_eq_some, get?_aliases, Uses]
  constructor
  · rintro ⟨target, hwithin, qualifier, hrefers, hmeans⟩
    exact ⟨target, qualifier, hwithin, hrefers, hmeans⟩
  · rintro ⟨target, qualifier, hwithin, hrefers, hmeans⟩
    exact ⟨target, hwithin, qualifier, hrefers, hmeans⟩

/-- No path of a file's usage is without symbols. -/
theorem occupied_usage (file : Tree) : file.usage.Occupied := by
  rw [usage, Cursor.walk_atRoot]
  exact occupied_foldl_recordReference ImportUsage.occupied_empty _

/-- A path is present if the file uses it at all. -/
theorem get?_usage_eq_none : file.usage.get? path = none ↔ ∀ symbol, ¬ file.Uses path symbol := by
  have hcontains : file.usage.contains path = true ↔ ∃ symbol, file.Uses path symbol := by
    constructor
    · intro h
      obtain ⟨symbol, huses⟩ := occupied_usage file path h
      exact ⟨symbol, uses_usage.1 huses⟩
    · rintro ⟨symbol, huses⟩
      exact (uses_usage.2 huses).contains
  rw [← not_exists, ← hcontains, Map.contains, Option.not_isSome_iff_eq_none]

end File

end Tree

/-- **What is read off a file is exact.** A file without a package clause is refused. Otherwise its
package is that of the last clause, and its usage has under each path the symbols that the file
uses through it; a path that the file does not use is absent. A source that is read without a syntax
error has what its tree has. -/
theorem Usage.ofTree_exact (file : Tree) :
    (∀ source, Tree.ofSource? source = some file → Usage.ofSource source = Usage.ofTree file) ∧
    ((∀ tree ∈ file.children, ¬ tree.IsClause) → Usage.ofTree file = .error .missingPackage) ∧
    ∀ name, file.LastClause name → ∃ usage, Usage.ofTree file = .ok ⟨name, usage⟩ ∧
      ∀ path,
        (∀ symbols, usage.get? path = some symbols →
          ∀ symbol, symbols.contains symbol = true ↔ file.Uses path symbol) ∧
        (usage.get? path = none ↔ ∀ symbol, ¬ file.Uses path symbol) := by
  refine ⟨fun source hsource => ?_, fun hclause => ?_, fun name hclause => ?_⟩
  · -- a source that is read has the usage of its tree
    rw [ofSource, hsource]
  · -- without a clause there is no package
    rw [ofTree, Tree.package?_eq_none.2 hclause]
  · refine ⟨file.usage, ?_, fun path => ⟨fun symbols hsymbols symbol => ?_, ?_⟩⟩
    · rw [ofTree, Tree.package?_eq_some.2 hclause]
    · -- the symbols of a path are those that are used through it
      rw [← Tree.uses_usage, ImportUsage.Uses, hsymbols]
      simp
    · exact Tree.get?_usage_eq_none

/-- A source with two clauses, whose imports stand between their uses; one alias is declared twice,
two imports share a path, and one import is not used. -/
def Usage.tangled : String :=
  "package a\nvar _ = x.A\nimport x \"m/b\"\nimport (\n\ty \"m/b\"\n\tx \"m/c\"\n\t\"m/d\"\n)\n" ++
    "func f(v *y.T) \x7b v.g(x.B) \x7d\npackage z\n"

/-- Of such a source, the last clause and the last declaration of an alias count. -/
theorem Usage.ofTree_exact_tangled : ∃ file, Tree.ofSource? tangled = some file ∧
    file.LastClause "z" ∧ (∀ symbol, file.Uses "m/c" symbol ↔ symbol ∈ ["A", "B"]) ∧
    (∀ symbol, file.Uses "m/b" symbol ↔ symbol ∈ ["T"]) ∧ ∀ symbol, ¬ file.Uses "m/d" symbol := by
  have hread : (Tree.ofSource? tangled).map (fun file => (file.package?, ofTree file)) =
      some (some "z",
        .ok ⟨"z", (ImportUsage.record .empty "m/b" ["T"]).record "m/c" ["A", "B"]⟩) := by
    decide +kernel
  obtain ⟨file, hfile, hvalue⟩ := Option.map_eq_some_iff.1 hread
  obtain ⟨hname, hvalue⟩ := Prod.mk.inj hvalue
  have hclause := Tree.package?_eq_some.1 hname
  obtain ⟨-, -, hexact⟩ := ofTree_exact file
  obtain ⟨usage, htree, hpaths⟩ := hexact "z" hclause
  rw [htree, Except.ok.injEq, Usage.mk.injEq] at hvalue
  obtain ⟨-, rfl⟩ := hvalue
  refine ⟨file, hfile, hclause, fun symbol => ?_, fun symbol => ?_, ?_⟩
  · rw [← (hpaths "m/c").1 (Set.ofList ["A", "B"]) rfl, Set.contains_ofList]
  · rw [← (hpaths "m/b").1 (Set.ofList ["T"]) rfl, Set.contains_ofList]
  · exact (hpaths "m/d").2.1 rfl
end PackageGraph.Go
