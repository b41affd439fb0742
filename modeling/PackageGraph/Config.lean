import PackageGraph.Drawing
import PackageGraph.Policy
import PackageGraph.Sources.Options
import PackageGraph.Toml.Document

/-!
# Configuration

What a user can set for a project: the rules of the policy, the looks of the drawing, and which
files are scanned. Settings come from a file, from the environment and from the command line; of two
values for one setting, the later source in this order counts.

## Main definitions

* `Config.ofToml?`: the settings of a file's text.
* `Config.load`: the settings of a file and of the environment.
* `Config.override`: replaces what the command line sets.
-/

namespace PackageGraph

open Toml (Value Entries)

/-- All settings. -/
structure Config where
  rules : PolicyRules
  drawing : DrawingOptions
  scan : ScanOptions
deriving DecidableEq

namespace Config

/-- The settings that hold where none are given. -/
def default : Config := ⟨.none, .default, .default⟩

instance : Inhabited Config := ⟨default⟩

/-! ### Files -/

/-- The values of the named fields, as far as they are there. A list gives its fields in order, and
a point in time is a table without any of them. -/
def fields? (names : List String) : Value → Option (List (Option Value))
  | .table _ entries => some (names.map fun name => entries.lookup name)
  | .array _ items => some ((List.range names.length).map fun i => items[i]?)
  | .time => some (names.map fun _ => none)
  | _ => none

/-- A field with a default. -/
def fieldOr {α : Type} (default : α) (read : Value → Option α) : Option Value → Option α
  | none => some default
  | some value => read value

def text? : Value → Option String
  | .text s => some s
  | _ => none

def boolean? : Value → Option Bool
  | .boolean b => some b
  | _ => none

/-- The items of a list, each read by `read`. -/
def list? {α : Type} (read : Value → Option α) : Value → Option (List α)
  | .array _ items => items.mapM read
  | _ => none

/-- A forbidden rule; it has to name its source. -/
def forbiddenRule? (value : Value) : Option ForbiddenRule := do
  match ← fields? ["from", "to"] value with
  | [some source, targets] => return ⟨← text? source, ← fieldOr [] (list? text?) targets⟩
  | _ => none

/-- The rules of a policy. -/
def rules? (value : Value) : Option PolicyRules := do
  let names := ["grouping_directories", "exclude_packages", "exclude_directories", "forbidden"]
  match ← fields? names value with
  | [grouping, packages, directories, forbidden] =>
    return ⟨← fieldOr [] (list? text?) grouping, ← fieldOr [] (list? text?) packages,
      ← fieldOr [] (list? text?) directories, ← fieldOr [] (list? forbiddenRule?) forbidden⟩
  | _ => none

/-- The options of a drawing. -/
def drawing? (value : Value) : Option DrawingOptions := do
  match ← fields? ["layout", "title"] value with
  | [layout, title] =>
    return ⟨← fieldOr DrawingOptions.default.layout text? layout,
      ← fieldOr DrawingOptions.default.title text? title⟩
  | _ => none

/-- The options of a scan. -/
def scan? (value : Value) : Option ScanOptions := do
  match ← fields? ["include_tests", "skip_dirs"] value with
  | [includeTests, skippedDirectories] =>
    return ⟨← fieldOr ScanOptions.default.includeTests boolean? includeTests,
      ← fieldOr ScanOptions.default.skippedDirectories (list? text?) skippedDirectories⟩
  | _ => none

/-- The settings in a document. What is not set has its default, and unknown keys do not matter. -/
def ofEntries? (entries : Entries) : Option Config :=
  return ⟨← fieldOr .none rules? (entries.lookup "policy"),
    ← fieldOr .default drawing? (entries.lookup "render"),
    ← fieldOr .default scan? (entries.lookup "scan")⟩

/-- The settings of a file's text. -/
def ofToml? (text : String) : Option Config := (Toml.ofText? text).bind ofEntries?

/-! ### Errors -/

/-- Why there are no settings. -/
inductive Error where
  | unreadable (path : String) (reason : AccessError)
  /-- The file is not well-formed, or a setting has a value of the wrong kind. -/
  | malformed (path : String)
  | unknownLayout (layout : String)
deriving DecidableEq, Inhabited

/-- The wording of an error. -/
def Error.message : Error → String
  | .unreadable path reason => "cannot read " ++ path ++ ": " ++ reason.message
  | .malformed path => path ++ ": not a valid configuration"
  | .unknownLayout layout =>
    "unknown layout `" ++ layout ++ "` (expected one of: " ++
      Text.joinWith ", " DrawingOptions.layoutEngines ++ ")"

/-! ### Loading -/

/-- The settings of the environment, as they are written there. -/
structure Environment where
  layout : Option String
  title : Option String
  includeTests : Option String
deriving DecidableEq, Inhabited

namespace Environment

/-- An environment without settings. -/
def empty : Environment := ⟨none, none, none⟩

/-- The settings of an environment's variables. -/
def ofVariables (lookup : String → Option String) : Environment :=
  ⟨lookup "PKGREL_LAYOUT", lookup "PKGREL_TITLE", lookup "PKGREL_INCLUDE_TESTS"⟩

end Environment

/-- A truth value that is written out. -/
def truth? : String → Option Bool
  | "true" => some true
  | "false" => some false
  | _ => none

/-- Replace what the environment sets. A variable that should be a truth value and is none does not
count. -/
def withEnvironment (config : Config) (environment : Environment) : Config where
  rules := config.rules
  drawing :=
    ⟨environment.layout.getD config.drawing.layout, environment.title.getD config.drawing.title⟩
  scan :=
    { config.scan with
      includeTests := (environment.includeTests.bind truth?).getD config.scan.includeTests }

/-- Refuse settings whose layout engine is not known. -/
def checked (config : Config) : Except Error Config :=
  if DrawingOptions.layoutEngines.contains config.drawing.layout then .ok config
  else .error (.unknownLayout config.drawing.layout)

/-- The file in a project that settings are read from unless another one is named. -/
def defaultPath (project : String) : String :=
  Disk.joinPath (Disk.joinPath project ".pkgrel") "config.toml"

/-- The settings of a file. -/
def ofFile (disk : Disk) (path : String) : Except Error Config :=
  match disk.read path with
  | .error reason => .error (.unreadable path reason)
  | .ok text =>
    match ofToml? text with
    | some config => .ok config
    | none => .error (.malformed path)

/-- The settings of the named file, or of the project's own file if it has one. -/
def ofProject (disk : Disk) (project : String) (path : Option String) : Except Error Config :=
  match path with
  | some path => ofFile disk path
  | none =>
    if disk.contains (defaultPath project) then ofFile disk (defaultPath project) else .ok default

/-- The settings of a project, those of the environment included. -/
def load (disk : Disk) (environment : Environment) (project : String) (path : Option String) :
    Except Error Config := do
  checked ((← ofProject disk project path).withEnvironment environment)

/-- Replace the layout engine and the title, if others are given. -/
def override (config : Config) (layout title : Option String) : Except Error Config :=
  checked
    { config with
      drawing := ⟨layout.getD config.drawing.layout, title.getD config.drawing.title⟩ }

@[simp] theorem withEnvironment_empty (config : Config) : config.withEnvironment .empty = config :=
  rfl

@[simp] theorem withEnvironment_rules (config : Config) (environment : Environment) :
    (config.withEnvironment environment).rules = config.rules := rfl

end Config

end PackageGraph
