import PackageGraph.Disk.Entry

/-!
# Disks

A file tree together with a current directory, and the access to it by written paths: absolute if
they begin with `/`, otherwise relative to the current directory. Reading and writing fail as a
Linux system does, with the same texts.

## Main definitions

* `Disk.locate`: the entry a path leads to.
* `Disk.read` and `Disk.write`: a file's text, and the disk with a file replaced or added.
-/

namespace PackageGraph

/-- Why a file could not be read or written. -/
inductive AccessError where
  | notFound
  | notDirectory
  | isDirectory
  | notText
deriving DecidableEq, Inhabited

/-- The wording of an access error. -/
def AccessError.message : AccessError → String
  | .notFound => "No such file or directory (os error 2)"
  | .notDirectory => "Not a directory (os error 20)"
  | .isDirectory => "Is a directory (os error 21)"
  | .notText => "stream did not contain valid UTF-8"

/-- A file tree and the directory that relative paths start from. -/
structure Disk where
  /-- The whole tree. -/
  root : Entry
  /-- The current directory, as the names that lead there from the root. -/
  here : Names
deriving Inhabited

namespace Disk

/-- Continue a path by another one: an absolute one replaces it. -/
def joinPath (base path : String) : String :=
  if path.toList.head? = some '/' || base.isEmpty then path
  else if base.toList.getLast? = some '/' then base ++ path
  else base ++ "/" ++ path

/-- The current directory as an absolute path. -/
def currentDirectory (disk : Disk) : String := "/" ++ Text.joinWith "/" disk.here

/-- The components of a written path. -/
def components (path : String) : List String := (path.toList.splitOn '/').map .ofList

/-- Follow components from a directory. An empty component and `.` stay, `..` goes up, and each of
them, like a name, needs a directory to start from. -/
def follow (root : Entry) (at' : Names) : List String → Except AccessError Names
  | [] => .ok at'
  | component :: rest =>
    match root.descendant? at' with
    | none => .error .notFound
    | some (.file _) => .error .notDirectory
    | some (.directory _) =>
      if component = "" ∨ component = "." then follow root at' rest
      else if component = ".." then follow root at'.dropLast rest
      else follow root (at' ++ [component]) rest

/-- Where a path leads, as names from the root, with the entry there. -/
def locate (disk : Disk) (path : String) : Except AccessError (Names × Entry) := do
  if path.isEmpty then throw .notFound
  let start := if path.toList.head? = some '/' then [] else disk.here
  let names ← follow disk.root start (components path)
  match disk.root.descendant? names with
  | some entry => pure (names, entry)
  | none => throw .notFound

/-- Does the path lead to a directory? -/
def isDirectory (disk : Disk) (path : String) : Bool :=
  match disk.locate path with
  | .ok (_, entry) => entry.isDirectory
  | .error _ => false

/-- Does the path lead anywhere? -/
def contains (disk : Disk) (path : String) : Bool :=
  match disk.locate path with
  | .ok _ => true
  | .error _ => false

/-- The text of the file at a path. -/
def read (disk : Disk) (path : String) : Except AccessError String := do
  match ← disk.locate path with
  | (_, .directory _) => throw .isDirectory
  | (_, .file (.binary _)) => throw .notText
  | (_, .file (.text s)) => pure s

/-- A path cut behind the slash before its last component: what is above, the component, and
whether slashes follow it. -/
def splitLast (path : String) : String × String × Bool :=
  let backwards := path.toList.reverse
  let isSlash (c : Char) := c = '/'
  let body := backwards.dropWhile isSlash
  (.ofList (body.dropWhile (!isSlash ·)).reverse, .ofList (body.takeWhile (!isSlash ·)).reverse,
    backwards.head?.any isSlash)

/-- The disk with a text written to the file at a path. The file may be new, its directory has to
be there. -/
def write (disk : Disk) (path : String) (text : String) : Except AccessError Disk := do
  let (above, name, slashed) := splitLast path
  if path.isEmpty then throw .notFound
  else if name = "" ∨ name = "." ∨ name = ".." then
    -- Such a path leads to a directory, if anywhere.
    let _ ← disk.locate path
    throw .isDirectory
  else
    match ← disk.locate (if above.isEmpty then "." else above) with
    | (_, .file _) => throw .notDirectory
    | (names, directory) =>
      match slashed, directory.child? name with
      | true, _ => throw .isDirectory
      | false, some (.directory _) => throw .isDirectory
      | false, _ => return { disk with root := disk.root.put (.file (.text text)) (names ++ [name]) }

end Disk

end PackageGraph
