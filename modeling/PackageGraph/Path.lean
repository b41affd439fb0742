import PackageGraph.Text.Basic

/-!
# Package paths

Directories of a project are written relative to its root, with `/` between segments; the root
itself is the empty path. A package is identified by its module's path, followed by `/` and its
directory unless that is the root.

## Main definitions

* `normalize`: the canonical spelling of a directory.
* `isUnder`: being at or below a directory, segment by segment.
* `qualify` and `relativeTo?`: from a directory to the identifier of its package and back.
-/

namespace PackageGraph.Path

open Text

/-- The segments of a path: what stands between its slashes. -/
def segments (path : List Char) : List (List Char) := path.splitOn '/'

/-- Put `/` between segments. -/
def join (parts : List (List Char)) : List Char := ['/'].intercalate parts

/-- Both kinds of slash separate segments; `/` is the one that is written. -/
def forwardSlash (c : Char) : Char := if c = '\\' then '/' else c

/-- Does a segment name a step down? The empty segment and `.` do not. -/
def isStep (segment : List Char) : Bool := !segment.isEmpty && segment != ['.']

/-- The canonical spelling of a directory: no blanks around it, `/` between segments, and neither
empty segments nor `.` among them. -/
def normalize (directory : String) : String :=
  .ofList <| join <|
    (segments ((trim directory.toList).map forwardSlash)).filter isStep

/-- Is the path at or below the directory? The directory has to end where a segment of the path
ends: `app/domain` is above `app/domain/entity` but not above `app/domainx`. Everything is below
the root. -/
def isUnder (path directory : String) : Bool :=
  directory.isEmpty ||
    match stripPrefix? directory.toList path.toList with
    | some [] => true
    | some (c :: _) => c = '/'
    | none => false

/-- The identifier of the package in a directory of the module. -/
def qualify (moduleRoot directory : String) : String :=
  if directory.isEmpty then moduleRoot else moduleRoot ++ "/" ++ directory

/-- The directory an import path stands for, or `none` if the path is not in the module. -/
def relativeTo? (moduleRoot importPath : String) : Option String :=
  match stripPrefix? moduleRoot.toList importPath.toList with
  | some [] => some ""
  | some (c :: rest) => if c = '/' then some (.ofList rest) else none
  | none => none

/-- The number of `/` in a text. -/
def slashes (s : String) : Nat := s.toList.count '/'

/-- How many segments an identifier has below its module's root. -/
def depth (moduleRoot id : String) : Nat := slashes id - slashes moduleRoot

@[simp] theorem qualify_root (moduleRoot : String) : qualify moduleRoot "" = moduleRoot := rfl

@[simp] theorem isUnder_root (path : String) : isUnder path "" = true := rfl

end PackageGraph.Path
