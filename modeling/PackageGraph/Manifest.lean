import PackageGraph.Disk

/-!
# Module manifests

The file `go.mod` in a project's root names the module in its first directive. Blank lines and
comments may stand before it.

## Main definitions

* `Manifest.directive?`: the module path of a manifest's text.
* `Manifest.moduleRoot`: the module path of a project.
-/

namespace PackageGraph.Manifest

open Text

/-- The name of the manifest file. -/
def fileName : String := "go.mod"

/-- A line up to its comment, if it has one. -/
def dropComment : List Char → List Char
  | [] => []
  | '/' :: '/' :: _ => []
  | c :: rest => c :: dropComment rest

/-- The marks that may stand around a module path. -/
def isQuote (c : Char) : Bool := c = '"' || c = '`'

/-- The module path of a directive: a blank has to follow its keyword, and the path is one word
without the marks around it. -/
def modulePath? (line : List Char) : Option String :=
  match stripPrefix? "module".toList line with
  | some (c :: rest) =>
    let path := trimMatches isQuote (trim rest)
    if isBlank c && !path.isEmpty && !path.any isBlank then some (.ofList path) else none
  | _ => none

/-- The module path of a manifest. It is looked for in the first line that is not blank without its
comment. -/
def directive? (text : String) : Option String :=
  let directives := (lines text.toList).map fun line => trim (dropComment line)
  (directives.find? (!·.isEmpty)).bind modulePath?

/-- Why a project has no module path. -/
inductive Reason where
  | unreadable (error : AccessError)
  | noDirective
deriving DecidableEq, Inhabited

/-- The wording of a reason. -/
def Reason.message : Reason → String
  | .unreadable error => error.message
  | .noDirective => "no module directive"

/-- A manifest that gives no module path, by its path. -/
structure Failure where
  path : String
  reason : Reason
deriving DecidableEq, Inhabited

/-- The wording of a failure. -/
def Failure.message (failure : Failure) : String :=
  "cannot determine module root from " ++ failure.path ++ ": " ++ failure.reason.message

/-- The module path of the project in a directory. -/
def moduleRoot (disk : Disk) (project : String) : Except Failure String :=
  let path := Disk.joinPath project fileName
  match disk.read path with
  | .error error => .error ⟨path, .unreadable error⟩
  | .ok text =>
    match directive? text with
    | none => .error ⟨path, .noDirective⟩
    | some root => .ok root

@[simp] theorem dropComment_nil : dropComment [] = [] := rfl

@[simp] theorem dropComment_comment (rest : List Char) : dropComment ('/' :: '/' :: rest) = [] :=
  rfl

@[simp] theorem directive?_empty : directive? "" = none := by decide

end PackageGraph.Manifest
