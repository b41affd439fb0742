import PackageGraph.CommandLine

/-!
# The program

Takes what a run may look at from the file system into a `Disk`, runs, and passes on what the run
leaves behind. All decisions are made by `CommandLine.run`.
-/

namespace PackageGraph.Program

/-- The absolute path of some names. -/
def absolutePath (names : Names) : String := "/" ++ Text.joinWith "/" names

/-- Where each beginning of a written path leads, if `here` is the current directory. -/
def waypoints (here : Names) (path : String) : List Names :=
  let start := if path.toList.head? = some '/' then [] else here
  let step (way : List Names × Names) (component : String) : List Names × Names :=
    let names :=
      if component = "" ∨ component = "." then way.2
      else if component = ".." then way.2.dropLast
      else way.2 ++ [component]
    (way.1 ++ [names], names)
  ((Disk.components path).foldl step ([start], start)).1

/-- Does a run look into files of this name? Other files are only known to be there. -/
def isRead (name : String) : Bool :=
  Text.hasSuffix ".go".toList name.toList ||
    [Manifest.fileName, "config.toml", ".pkgrelignore", ".ignore", ".gitignore", ".git", "exclude",
      "commondir"].contains name

/-- The file at a path. -/
def loadFile (path : String) : IO Entry := do
  return .file (.ofBytes (← IO.FS.readBinFile path).toList)

/-- The entry at a path with all that is below it. Links below it are left out. -/
partial def loadTree (path : String) : IO Entry := do
  let place := (← IO.currentDir) / path
  if ← place.isDir then
    let mut children := []
    for entry in ← place.readDir do
      let inside := Disk.joinPath path entry.fileName
      match (← entry.path.symlinkMetadata).type with
      | .dir => children := (entry.fileName, ← loadTree inside) :: children
      | .file =>
        let file ← if isRead entry.fileName then loadFile inside else pure (.file (.text ""))
        children := (entry.fileName, file) :: children
      | _ => pure ()
    return .directory children
  else loadFile path

/-- Add what the names lead to: a directory without its children, or a file. -/
def addEntry (root : Entry) (names : Names) : IO Entry := do
  let path := (← IO.currentDir) / absolutePath names
  if ← path.isDir then return root.makeDirectory names
  else if ← path.pathExists then return root.put (← loadFile (absolutePath names)) names
  else return root

/-- Add what a written path leads to, and the directories on the way. -/
def addPath (here : Names) (root : Entry) (path : String) : IO Entry :=
  (waypoints here path).foldlM addEntry root

/-- Add the ignore files of the directories above a project. -/
def addLevelsAbove (root : Entry) (project : Names) : IO Entry := do
  let mut root := root
  for length in List.range project.length do
    let directory := project.take length
    for names in [[".git"], [".jj"]] ++ Ignore.Kind.all.map (·.names) do
      root ← addEntry root (directory ++ names)
  return root

/-- The part of the file system that a run with these arguments may look at. -/
def loadDisk (arguments : List String) : IO Disk := do
  let here := (Disk.components (← IO.currentDir).toString).filter (· ≠ "")
  let root := Entry.emptyDirectory.makeDirectory here
  match Invocation.ofArguments arguments with
  | .error _ => return ⟨root, here⟩
  | .ok invocation =>
    let project := (invocation.value? .project).getD "."
    let named := [invocation.value? .config, invocation.value? .output].filterMap id
    let root ← (project :: named).foldlM (addPath here) root
    let place := ((waypoints here project).getLast?).getD here
    let root ← addLevelsAbove root place
    if ← ((← IO.currentDir) / absolutePath place).pathExists then
      let tree ← loadTree (absolutePath place)
      let root := root.put tree place
      return ⟨← named.foldlM (addPath here) root, here⟩
    else return ⟨root, here⟩

end PackageGraph.Program

open PackageGraph

/-- Run the program on the file system. -/
def main (arguments : List String) : IO UInt32 := do
  let environment : Config.Environment :=
    ⟨← IO.getEnv "PKGREL_LAYOUT", ← IO.getEnv "PKGREL_TITLE", ← IO.getEnv "PKGREL_INCLUDE_TESTS"⟩
  let disk ← Program.loadDisk arguments
  let outcome := CommandLine.run disk environment arguments
  if let some path := outcome.written then
    if let .ok text := outcome.disk.read path then IO.FS.writeFile path text
  IO.print outcome.output
  IO.eprint outcome.messages
  return outcome.exitCode.toUInt32
