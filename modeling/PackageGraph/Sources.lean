import PackageGraph.Fact
import PackageGraph.Filters
import PackageGraph.Go.Usage
import PackageGraph.Sorted.Sort
import PackageGraph.Sources.Walk

/-!
# Sources

The source files of a project, and the facts about packages that they state. Files are listed in the
order of their paths, name by name; the package in a directory is what all of its files together
say.

## Main definitions

* `Sources.walk`: the files that are come to.
* `Sources.select` and `Sources.files`: those that are scanned, relative to the project.
* `Sources.facts`: the facts they state.
* `Sources.Failure`: why there are none.
-/

namespace PackageGraph.Sources

/-- Why a project's sources could not be listed or read. -/
inductive Reason where
  /-- The project is not there. -/
  | noProject (error : AccessError)
  /-- Faults in ignore files above the project. -/
  | ignoreFiles (faults : List (String × Ignore.Fault))
  | unreadable (error : AccessError)
  | source (error : Go.SourceError)
deriving DecidableEq, Inhabited

/-- A path that sources could not be read from, with the reason. -/
structure Failure where
  path : String
  reason : Reason
deriving DecidableEq, Inhabited

/-- The wording of a failure. -/
def Failure.message (failure : Failure) : String :=
  "cannot read source " ++ failure.path ++ ": " ++
    match failure.reason with
    | .noProject error =>
      failure.path ++ ": IO error for operation on " ++ failure.path ++ ": " ++ error.message
    | .ignoreFiles faults =>
      Text.joinWith "\n" (faults.map fun (path, fault) => fault.message path)
    | .unreadable error => error.message
    | .source error => error.message

/-! ### Files -/

/-- The written form of a relative path. -/
def pathOf (names : Names) : String := Text.joinWith "/" names

/-- Is this the name of a source file? A file whose name is the extension alone has none. -/
def isSourceName (options : ScanOptions) (name : String) : Bool :=
  Text.hasSuffix ".go".toList name.toList && name != ".go" &&
    (options.includeTests || !Text.hasSuffix "_test.go".toList name.toList)

/-- The levels above a project's directory. A faulty ignore file there is a failure, one inside the
project is not. -/
def levelsAbove (disk : Disk) (project : String) (directory : Names) :
    Except Failure (List Ignore.Level) :=
  let levels := Ignore.Level.above disk directory
  match levels.reverse.flatMap (·.faults) with
  | [] => .ok levels
  | [(path, fault)] => .error ⟨path, .ignoreFiles [(path, fault)]⟩
  | faults => .error ⟨project, .ignoreFiles faults⟩

/-- Does a path stand for the standard input, which has no files? The path `-` does, in any
spelling. -/
def isStandardInput (project : String) : Bool :=
  match Disk.components project with
  | "-" :: rest => rest.all fun component => component = "" || component = "."
  | _ => false

/-- The files of a project that a walk comes to, by absolute path and in the order of the walk, and
the project's own path. A project may also be a single file. -/
def walk (disk : Disk) (project : String) (options : ScanOptions) :
    Except Failure (Names × List Names) :=
  if isStandardInput project then .ok ([], [])
  else do
    let (here, entry) ← (disk.locate project).mapError fun error => ⟨project, .noProject error⟩
    let levels ← if entry.isDirectory then levelsAbove disk project here else pure []
    return (here, filesBelow disk options levels here entry)

/-- Of the files that a walk came to, the source files that pass the filters, relative to the
project, least first. -/
def select (options : ScanOptions) (filters : Filters) (here : Names) (found : List Names) :
    List Names :=
  let sources := found.filter fun names => names.getLast?.any (isSourceName options)
  Sorted.sort <|
    (sources.map fun names => names.drop here.length).filter (filters.allows <| pathOf ·)

/-- The source files of a project that pass the filters, relative to the project, least first. -/
def files (disk : Disk) (project : String) (options : ScanOptions) (filters : Filters) :
    Except Failure (List Names) := do
  let (here, found) ← walk disk project options
  return select options filters here found

/-! ### Facts -/

/-- What a source file says of its package. -/
def usage (disk : Disk) (project : String) (file : Names) : Except Failure Go.Usage :=
  match disk.read (Disk.joinPath project (pathOf file)) with
  | .error error => .error ⟨pathOf file, .unreadable error⟩
  | .ok text => (Go.Usage.ofSource text).mapError fun error => ⟨pathOf file, .source error⟩

/-- The fact that one source file states. -/
def factOf (file : Names) (usage : Go.Usage) : Fact :=
  { Fact.ofName usage.package (pathOf file.dropLast) with usage := usage.usage }

/-- The facts that source files state. The first file that cannot be read is a failure. -/
def factsOf (disk : Disk) (project : String) (listed : List Names) : Except Failure FactSet := do
  return .ofList (← listed.mapM fun file => factOf file <$> usage disk project file)

/-- The facts that a project's source files state. -/
def facts (disk : Disk) (project : String) (options : ScanOptions) (filters : Filters) :
    Except Failure FactSet := do
  factsOf disk project (← files disk project options filters)

@[simp] theorem pathOf_nil : pathOf [] = "" := rfl

@[simp] theorem walk_standardInput (disk : Disk) (options : ScanOptions) :
    walk disk "-" options = .ok ([], []) := by
  rw [walk, if_pos (by decide)]

end PackageGraph.Sources
