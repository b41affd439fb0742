import PackageGraph.Analysis
import PackageGraph.CommandLine.Invocation
import PackageGraph.OutputFormat
import PackageGraph.Report

/-!
# The command line

A run of the program as a function of a disk, the environment and the arguments: what it prints,
which code it exits with, and the disk it leaves behind. A run that fails leaves the disk as it was.

## Main definitions

* `CommandLine.Outcome`: what a run leaves behind.
* `CommandLine.run`: the run of some arguments.
-/

namespace PackageGraph.CommandLine

/-- What a run leaves behind. -/
structure Outcome where
  exitCode : Nat
  /-- The text on standard output. -/
  output : String
  /-- The text on standard error. -/
  messages : String
  disk : Disk
  /-- The path of the file that was written. -/
  written : Option String
deriving Inhabited

/-! ### Failures -/

/-- Why an action could not be done. -/
inductive Failure where
  | unknownFormat (name : String)
  | config (error : Config.Error)
  | filters (error : FilterError)
  | analysis (project : String) (failure : Analysis.Failure)
  | unwritable (path : String) (error : AccessError)
deriving DecidableEq, Inhabited

/-- The wording of a failure. -/
def Failure.message : Failure → String
  | .unknownFormat name =>
    "Unknown export format: " ++ name ++ ". Use 'dot', 'mermaid', or 'json'."
  | .config error => Analysis.invalidConfiguration error.message
  | .filters error => Analysis.invalidConfiguration error.message
  | .analysis project _ => "failed to analyze " ++ project
  | .unwritable path _ => "failed to write " ++ path

/-- The wording of a failure's cause, if it has one. -/
def Failure.cause? : Failure → Option String
  | .analysis _ failure => some failure.message
  | .unwritable _ error => some error.message
  | _ => none

/-- A text with its lines moved to the right. -/
def indent (text : String) : String :=
  Text.joinWith "\n" ((text.toList.splitOn '\n').map fun line => "    " ++ .ofList line)

/-- What is printed about a failure. -/
def Failure.report (failure : Failure) : String :=
  "Error: " ++ failure.message ++ "\n" ++
    match failure.cause? with
    | none => ""
    | some cause => "\nCaused by:\n" ++ indent cause ++ "\n"

/-! ### Actions -/

/-- The project that is asked for: a directory, or else the current one. -/
def projectOf (disk : Disk) (invocation : Invocation) : String :=
  (invocation.value? .project).getD disk.currentDirectory

/-- The settings and the model of the project that is asked for. -/
def analyze (disk : Disk) (environment : Config.Environment) (invocation : Invocation) :
    Except Failure (Config × Model) := do
  let project := projectOf disk invocation
  let loaded ← (Config.load disk environment project (invocation.value? .config)).mapError .config
  let config ←
    (loaded.override (invocation.value? .layout) (invocation.value? .title)).mapError .config
  let filters ←
    (Filters.ofPatterns (invocation.all .include) (invocation.all .exclude)).mapError .filters
  let model ← (Analysis.model disk project config filters).mapError (.analysis project)
  return (config, model)

/-- The name of the format that is written unless another one is named. -/
def defaultFormat : String := "dot"

/-- The text of the graph in the format that is asked for. The format is looked at first. -/
def drawing (disk : Disk) (environment : Config.Environment) (invocation : Invocation) :
    Except Failure String := do
  let name := (invocation.value? .format).getD defaultFormat
  match OutputFormat.ofName? name with
  | none => throw (.unknownFormat name)
  | some format =>
    let (config, model) ← analyze disk environment invocation
    return format.write model.toRecords config.drawing

/-- An outcome that only prints to standard output. -/
def printed (disk : Disk) (exitCode : Nat) (output : String) : Outcome :=
  ⟨exitCode, output, "", disk, none⟩

/-- Print the graph, or write it to a file. -/
def render (disk : Disk) (environment : Config.Environment) (invocation : Invocation) :
    Except Failure Outcome := do
  let text ← drawing disk environment invocation
  match invocation.value? .output with
  | none => return printed disk 0 text
  | some path =>
    let changed ← (disk.write path text).mapError (.unwritable path)
    return ⟨0, "", "Wrote " ++ path ++ "\n", changed, some path⟩

/-- The exit code of a project with forbidden relations, and of arguments that are not
understood. -/
def refusalCode : Nat := 2

/-- List the forbidden relations. -/
def check (disk : Disk) (environment : Config.Environment) (invocation : Invocation) :
    Except Failure Outcome := do
  let (_, model) ← analyze disk environment invocation
  let edges := model.forbiddenEdges
  return printed disk (if edges.isEmpty then 0 else refusalCode) (Report.forbidden edges)

/-- Print the counts of the model. -/
def info (disk : Disk) (environment : Config.Environment) (invocation : Invocation) :
    Except Failure Outcome := do
  let (_, model) ← analyze disk environment invocation
  return printed disk 0 (Report.summary model)

/-- Do an action. -/
def perform (disk : Disk) (environment : Config.Environment) (invocation : Invocation) :
    Except Failure Outcome :=
  match invocation.action with
  | .render => render disk environment invocation
  | .check => check disk environment invocation
  | .info => info disk environment invocation

/-! ### Runs -/

/-- The name of the program and its version. -/
def version : String := "pkgrel 0.3.0"

/-- A short guide to the arguments. -/
def usage : String :=
  Report.unlines
    ["Usage: pkgrel [OPTIONS] <COMMAND>",
      "",
      "Commands:",
      "  render  Render the package relation graph",
      "            -o, --output <FILE>, -f, --format <FORMAT>, -l, --layout <ENGINE>,",
      "            --title <TITLE>, --include <GLOB>, --exclude <GLOB>",
      "  check   List forbidden relations; exits with status 2 if any exist",
      "            --include <GLOB>, --exclude <GLOB>",
      "  info    Show node, edge, and rank statistics",
      "            --include <GLOB>, --exclude <GLOB>",
      "  help    Print this message",
      "",
      "Options:",
      "  -p, --project <PROJECT>  Project root directory (defaults to current directory)",
      "      --config <CONFIG>    Config file (defaults to .pkgrel/config.toml in the project)",
      "  -v, --verbose            Increase log verbosity",
      "  -h, --help               Print help",
      "  -V, --version            Print version"]

/-- The outcome of a run that ends before any action. -/
def interrupted (disk : Disk) : Interruption → Outcome
  | .misuse => ⟨refusalCode, "", usage, disk, none⟩
  | .help => printed disk 0 usage
  | .version => printed disk 0 (version ++ "\n")

/-- Run the program. -/
def run (disk : Disk) (environment : Config.Environment) (arguments : List String) : Outcome :=
  match Invocation.ofArguments arguments with
  | .error interruption => interrupted disk interruption
  | .ok invocation =>
    match perform disk environment invocation with
    | .ok outcome => outcome
    | .error failure => ⟨1, "", failure.report, disk, none⟩

@[simp] theorem run_nil (disk : Disk) (environment : Config.Environment) :
    run disk environment [] = interrupted disk .misuse := rfl

end PackageGraph.CommandLine
