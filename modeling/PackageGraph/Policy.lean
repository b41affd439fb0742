import PackageGraph.Disk
import PackageGraph.Path
import PackageGraph.Sorted.Set

/-!
# Policies

What the user wants to see of a module: directories that collapse into one node, packages that are
left out, and relations that must not be. `PolicyRules` is the form the rules are written in;
`Policy` is their checked form, whose questions always have an answer.

## Main definitions

* `Policy.ofRules`: checks the rules and expands excluded directories on a disk.
* `Policy.groupOf`, `Policy.effectiveId`: the directory and the node that stand for a package.
-/

namespace PackageGraph

open Sorted

/-- Packages that the package `source` must not use. -/
structure ForbiddenRule where
  source : String
  targets : List String
deriving DecidableEq, Inhabited

/-- The rules of a policy as the user writes them. -/
structure PolicyRules where
  /-- Directories whose packages collapse into one node. -/
  grouping : List String
  /-- Identifiers of packages to leave out. -/
  excludedPackages : List String
  /-- Directories to leave out with all that is below them. -/
  excludedDirectories : List String
  forbidden : List ForbiddenRule
deriving DecidableEq, Inhabited

namespace PolicyRules

/-- No rules. -/
def none : PolicyRules := ⟨[], [], [], []⟩

/-- Are there no rules at all? -/
def isEmpty (rules : PolicyRules) : Bool :=
  rules.grouping.isEmpty && rules.excludedPackages.isEmpty && rules.excludedDirectories.isEmpty &&
    rules.forbidden.isEmpty

end PolicyRules

/-- Why rules are refused. -/
inductive RuleError where
  /-- Two grouping directories, one below the other. -/
  | nested (outer inner : String)
  /-- An excluded directory that the project does not have. -/
  | missingDirectory (directory project : String)
  /-- A forbidden rule that names no source. -/
  | blankSource
deriving DecidableEq, Inhabited

/-- The wording of a refused rule. -/
def RuleError.message : RuleError → String
  | .nested outer inner =>
    "grouping directories must not nest: `" ++ outer ++ "` contains `" ++ inner ++ "`"
  | .missingDirectory directory project =>
    "excluded directory `" ++ directory ++ "` does not exist under " ++ project
  | .blankSource => "forbidden rule with an empty `from`"

/-- The checked rules for one module. -/
structure Policy where
  moduleRoot : String
  /-- Grouping directories in increasing order, none below another. -/
  grouping : List String
  /-- The identifiers that are left out, those of excluded directories included. -/
  excluded : Sorted.Set String
  /-- For each source, the targets it must not use. -/
  forbidden : Sorted.Map String (Sorted.Set String)
deriving DecidableEq, Inhabited

namespace Policy

/-- The policy without rules. -/
def unrestricted (moduleRoot : String) : Policy := ⟨moduleRoot, [], .empty, .empty⟩

/-! ### Checking rules -/

/-- The first two directories of a list of which one is at or below the other, in list order. -/
def nestedPair? : List String → Option (String × String)
  | [] => none
  | outer :: rest =>
    match rest.find? fun inner => Path.isUnder inner outer || Path.isUnder outer inner with
    | some inner => some (outer, inner)
    | none => nestedPair? rest

/-- Grouping entries without duplicates and blank ones, in canonical spelling and increasing
order; refused if one is below another. -/
def checkGrouping (entries : List String) : Except RuleError (List String) :=
  let grouping := (Set.ofList ((entries.map Path.normalize).filter (!·.isEmpty))).toList
  match nestedPair? grouping with
  | some (outer, inner) => .error (.nested outer inner)
  | none => .ok grouping

/-- A text without the blanks around it. -/
def trimmed (s : String) : String := .ofList (Text.trim s.toList)

/-- The identifiers of all packages at or below a directory of the project. -/
def packagesBelow (disk : Disk) (project moduleRoot directory : String) :
    Except RuleError (List String) :=
  match disk.locate (Disk.joinPath project directory) with
  | .ok (_, .directory children) =>
    .ok <| (Entry.directory children).directories.map fun names =>
      Path.qualify moduleRoot (Path.normalize (Text.joinWith "/" (directory :: names)))
  | _ => .error (.missingDirectory directory project)

/-- The identifiers of all packages at or below the excluded directories. -/
def expandDirectories (disk : Disk) (project moduleRoot : String) (directories : List String) :
    Except RuleError (List String) := do
  let named := (directories.map Path.normalize).filter (!·.isEmpty)
  return (← named.mapM (packagesBelow disk project moduleRoot)).flatten

/-- Add the targets of a forbidden rule to those of its source; targets are trimmed and blank ones
dropped. -/
def addForbidden (gathered : Sorted.Map String (Sorted.Set String)) (rule : ForbiddenRule) :
    Except RuleError (Sorted.Map String (Sorted.Set String)) :=
  let source := trimmed rule.source
  if source.isEmpty then .error .blankSource
  else
    let targets := (rule.targets.map trimmed).filter (!·.isEmpty)
    .ok <| gathered.upsert source fun known => (known.getD .empty).insertAll targets

/-- The targets of forbidden rules, gathered by source. -/
def gatherForbidden (rules : List ForbiddenRule) :
    Except RuleError (Sorted.Map String (Sorted.Set String)) :=
  rules.foldlM addForbidden .empty

/-- Check rules for a module. The grouping is looked at first, then the excluded directories in
the order given, then the forbidden rules. -/
def ofRules (rules : PolicyRules) (moduleRoot : String) (disk : Disk) (project : String) :
    Except RuleError Policy := do
  let grouping ← checkGrouping rules.grouping
  let packages := (rules.excludedPackages.map trimmed).filter (!·.isEmpty)
  let below ← expandDirectories disk project moduleRoot rules.excludedDirectories
  let forbidden ← gatherForbidden rules.forbidden
  return ⟨moduleRoot, grouping, Set.ofList (packages ++ below), forbidden⟩

/-! ### Questions -/

/-- The grouping entry that a directory is at or below. There is at most one. -/
def groupRoot? (policy : Policy) (directory : String) : Option String :=
  policy.grouping.find? (Path.isUnder directory)

/-- Does the directory collapse into a group? -/
def isGrouped (policy : Policy) (directory : String) : Bool :=
  (policy.groupRoot? directory).isSome

/-- The directory that stands for this one: its grouping entry, or itself. -/
def groupOf (policy : Policy) (directory : String) : String :=
  (policy.groupRoot? directory).getD directory

/-- The identifier of the node that stands for a directory. -/
def effectiveId (policy : Policy) (directory : String) : String :=
  Path.qualify policy.moduleRoot (policy.groupOf directory)

/-- Is the package with this identifier left out? -/
def isExcluded (policy : Policy) (id : String) : Bool := policy.excluded.contains id

/-- Must `source` not use `target`? -/
def isForbidden (policy : Policy) (source target : String) : Bool :=
  match policy.forbidden.get? source with
  | some targets => targets.contains target
  | none => false

@[simp] theorem groupOf_unrestricted (moduleRoot directory : String) :
    (unrestricted moduleRoot).groupOf directory = directory := rfl

@[simp] theorem isExcluded_unrestricted (moduleRoot id : String) :
    (unrestricted moduleRoot).isExcluded id = false := rfl

@[simp] theorem isForbidden_unrestricted (moduleRoot source target : String) :
    (unrestricted moduleRoot).isForbidden source target = false := rfl

end Policy

end PackageGraph
