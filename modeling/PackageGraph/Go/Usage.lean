import PackageGraph.Fact
import PackageGraph.Go.Cursor
import PackageGraph.Go.Grammar.File

/-!
# Import usage of a file

Which symbols a Go file uses through which of its imports. Imports are known by their aliases; a
reference counts for the import that its qualifier is the alias of, wherever in the file it stands.

## Main definitions

* `Tree.aliases`: the import path for each alias of a file.
* `Tree.usage`: the symbols that are referred to through each path.
* `Usage.ofSource`: the package name and the usage of a source.
-/

namespace PackageGraph.Go

open Sorted

/-! ### Imports -/

/-- The marks that a path is quoted with. -/
def isQuote (c : Char) : Bool := c = '"' || c = Literal.rawMark

/-- The path of an import between its quotes. Escapes are not resolved. -/
def unquoted (literal : String) : String := .ofList (Text.trimMatches isQuote literal.toList)

/-- The alias of an import without a name: what follows the last slash of its path. -/
def defaultAlias (importPath : String) : String :=
  .ofList ((Path.segments importPath.toList).getLast?.getD [])

/-- The names that no qualifier refers to. -/
def isUnnamed (name : String) : Bool := name == "_" || name == "." || name.isEmpty

/-- The alias that an import declares, with its path. -/
def aliasOf? : Label → Option (String × String)
  | .importSpec name literal =>
    let path := unquoted literal
    let name := name.getD (defaultAlias path)
    if isUnnamed name then none else some (name, path)
  | _ => none

namespace Tree

/-- The nodes of the imports that a declaration holds, alone or in a group. -/
def importNodes : Tree → List Tree
  | node (.form .importList) specs => specs
  | tree => [tree]

/-- The aliases that a part of a file declares, with their paths. -/
def declaredAliases : Tree → List (String × String)
  | node (.form .importDeclaration) parts =>
    (parts.flatMap importNodes).filterMap fun spec => aliasOf? spec.label
  | _ => []

/-- The import path for each alias of a file; the last import that declares an alias counts. -/
def aliases (file : Tree) : Sorted.Map String String :=
  (file.children.flatMap declaredAliases).foldl (fun known (name, path) => known.insert name path)
    .empty

/-- The name in a package clause. -/
def packageName? : Tree → Option String
  | node (.packageClause name) _ => some name
  | _ => none

/-- The package of a file; the last clause counts. -/
def package? (file : Tree) : Option String :=
  (file.children.filterMap packageName?).getLast?

/-! ### References -/

/-- Note the symbol that a node refers to, if its qualifier is an alias. -/
def recordReference (aliases : Sorted.Map String String) (usage : ImportUsage) (tree : Tree) :
    ImportUsage :=
  match tree.reference? with
  | none => usage
  | some (qualifier, symbol) =>
    match aliases.get? qualifier with
    | none => usage
    | some path => usage.record path [symbol]

/-- The symbols that the nodes of a file refer to, by import path. -/
def usage (file : Tree) : ImportUsage :=
  (Cursor.atRoot file).walk (recordReference file.aliases) .empty

end Tree

/-! ### Sources -/

/-- What a source says of its package. -/
structure Usage where
  package : String
  usage : ImportUsage
deriving DecidableEq, Inhabited

/-- Why a source says nothing of its package. -/
inductive SourceError where
  | syntaxError
  | missingPackage
deriving DecidableEq, Inhabited

/-- The wording of a source error. -/
def SourceError.message : SourceError → String
  | .syntaxError => "syntax error"
  | .missingPackage => "missing package clause"

/-- The package and the usage of a file's tree. -/
def Usage.ofTree (file : Tree) : Except SourceError Usage :=
  match file.package? with
  | none => .error .missingPackage
  | some package => .ok ⟨package, file.usage⟩

/-- The package and the usage of a source. -/
def Usage.ofSource (source : String) : Except SourceError Usage :=
  match Tree.ofSource? source with
  | none => .error .syntaxError
  | some file => ofTree file

@[simp] theorem defaultAlias_empty : defaultAlias "" = "" := by decide

end PackageGraph.Go
