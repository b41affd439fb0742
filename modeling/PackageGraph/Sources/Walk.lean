import PackageGraph.Ignore.Level
import PackageGraph.Manifest
import PackageGraph.Sources.Options

/-!
# The walk through a project

The files of a project that are seen at all. An entry is passed over if it is hidden or an ignore
file says so; of the directories that are left, some are not entered, whatever ignore files say:
those with a name that sets them apart, those that the user skips, and those that hold another
module.

## Main definitions

* `enters`: may a directory be entered?
* `filesBelow`: all files that the walk comes to.
-/

namespace PackageGraph.Sources

open Ignore (Level admits)

/-- Does the name set a directory apart from the packages of a module? -/
def isSetApart (name : String) : Bool :=
  match name.toList with
  | c :: _ => c = '_' || c = '.'
  | [] => false

/-- Does the directory hold a module of its own? -/
def holdsModule (directory : Entry) : Bool :=
  match directory.child? Manifest.fileName with
  | some entry => entry.isFile
  | none => false

/-- May a directory below a project be entered? -/
def enters (options : ScanOptions) (name : String) (directory : Entry) : Bool :=
  !isSetApart name && !options.skippedDirectories.contains name && !holdsModule directory

/-- Does the walk come to a child of a directory? -/
def visits (options : ScanOptions) (levels : List Level) (here : Names) (name : String)
    (entry : Entry) : Bool :=
  admits levels (here ++ [name]) entry.isDirectory && (entry.isFile || enters options name entry)

mutual

/-- The files at or below an entry that the walk comes to, as the names that lead there from the
root of the disk. -/
def filesBelow (disk : Disk) (options : ScanOptions) (levels : List Level) (here : Names) :
    Entry → List Names
  | .file _ => [here]
  | .directory children =>
    filesAmong disk options (Level.ofDirectory disk here (.directory children) :: levels) here
      children

/-- The files at or below some children of a directory that the walk comes to. -/
def filesAmong (disk : Disk) (options : ScanOptions) (levels : List Level) (here : Names) :
    List (String × Entry) → List Names
  | [] => []
  | (name, entry) :: rest =>
    (if visits options levels here name entry then
      filesBelow disk options levels (here ++ [name]) entry
    else []) ++ filesAmong disk options levels here rest

end

@[simp] theorem filesBelow_file (disk : Disk) (options : ScanOptions) (levels : List Level)
    (here : Names) (content : Content) :
    filesBelow disk options levels here (.file content) = [here] := by
  simp [filesBelow]

@[simp] theorem filesAmong_nil (disk : Disk) (options : ScanOptions) (levels : List Level)
    (here : Names) : filesAmong disk options levels here [] = [] := by
  simp [filesAmong]

end PackageGraph.Sources
