import PackageGraph.Text.Basic

/-!
# File trees

A directory tree held as a value: files with their contents, directories with their named
children. Symbolic links and permissions are not modelled.
-/

namespace PackageGraph

/-- What a file holds. -/
inductive Content where
  /-- Well-formed UTF-8. -/
  | text (s : String)
  /-- Bytes that are no UTF-8 text. -/
  | binary (bytes : List UInt8)
deriving DecidableEq, Inhabited

/-- The content made of these bytes. -/
def Content.ofBytes (bytes : List UInt8) : Content :=
  match String.fromUTF8? ⟨bytes.toArray⟩ with
  | some s => .text s
  | none => .binary bytes

/-- The bytes of a content. -/
def Content.bytes : Content → List UInt8
  | .text s => s.toUTF8.data.toList
  | .binary bytes => bytes

/-- A file, or a directory with its named children. -/
inductive Entry where
  | file (content : Content)
  | directory (children : List (String × Entry))
deriving Inhabited

/-- The names on the way from a directory down to one of its descendants. -/
abbrev Names := List String

namespace Entry

/-- The directory without children. -/
def emptyDirectory : Entry := .directory []

def isDirectory : Entry → Bool
  | .directory _ => true
  | .file _ => false

def isFile : Entry → Bool
  | .directory _ => false
  | .file _ => true

/-- The children of a directory; a file has none. -/
def children : Entry → List (String × Entry)
  | .directory children => children
  | .file _ => []

/-- The child of this name. -/
def child? (entry : Entry) (name : String) : Option Entry := entry.children.lookup name

/-- The descendant that the names lead to. -/
def descendant? (entry : Entry) : Names → Option Entry
  | [] => some entry
  | name :: rest => (entry.child? name).bind (descendant? · rest)

@[simp] theorem descendant?_nil (entry : Entry) : entry.descendant? [] = some entry := rfl

@[simp] theorem child?_file (content : Content) (name : String) :
    (Entry.file content).child? name = none := rfl

/-! ### Change -/

/-- Replace the child of this name in a list of children, or add it at the end. -/
def putChild (name : String) (entry : Entry) : List (String × Entry) → List (String × Entry)
  | [] => [(name, entry)]
  | (name', entry') :: rest =>
    if name' = name then (name, entry) :: rest else (name', entry') :: putChild name entry rest

/-- Put an entry where the names lead. Missing directories on the way are made, and a file on the
way gives place to a directory. -/
def put (entry : Entry) (new : Entry) : Names → Entry
  | [] => new
  | name :: rest =>
    .directory <|
      putChild name (put ((entry.child? name).getD emptyDirectory) new rest) entry.children

/-- Make a directory where the names lead, if there is none. -/
def makeDirectory (entry : Entry) (names : Names) : Entry :=
  match entry.descendant? names with
  | some (.directory _) => entry
  | _ => entry.put emptyDirectory names

/-! ### Directories of a tree -/

mutual

/-- The directories at or below an entry, as the names that lead there. -/
def directories : Entry → List Names
  | .file _ => []
  | .directory children => [] :: directoriesBelow children

/-- The directories at or below some children. -/
def directoriesBelow : List (String × Entry) → List Names
  | [] => []
  | (name, entry) :: rest => (directories entry).map (name :: ·) ++ directoriesBelow rest

end

end Entry

end PackageGraph
