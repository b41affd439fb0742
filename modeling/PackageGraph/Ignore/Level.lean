import PackageGraph.Disk
import PackageGraph.Ignore.Rule

/-!
# Levels of ignore files

Every directory may hold ignore files of four kinds. What they say about an entry is looked up kind
by kind, in a fixed order of precedence, and within a kind from the entry's directory upwards to the
root of the disk; the first file that says anything decides. Files that belong to version control
count only inside a repository, and only up to its own root.

## Main definitions

* `Level.ofDirectory`: the ignore files of a directory.
* `verdict?`: what all levels together say about an entry.
* `admits`: is an entry seen? What begins with a dot is not, unless a rule admits it.
-/

namespace PackageGraph.Ignore

/-- The kinds of ignore files, in order of precedence. -/
inductive Kind where
  /-- Rules for this program. -/
  | own
  /-- Rules for all programs. -/
  | general
  /-- Rules under version control. -/
  | versioned
  /-- Rules of one working copy. -/
  | workingCopy
deriving DecidableEq, Inhabited

/-- All kinds, the one that precedes all others first. -/
def Kind.all : List Kind := [.own, .general, .versioned, .workingCopy]

/-- Where a file of this kind lies in its directory. -/
def Kind.names : Kind → Names
  | .own => [".pkgrelignore"]
  | .general => [".ignore"]
  | .versioned => [".gitignore"]
  | .workingCopy => [".git", "info", "exclude"]

/-- Do files of this kind count in repositories alone? -/
def Kind.needsRepository : Kind → Bool
  | .own | .general => false
  | .versioned | .workingCopy => true

/-- The ignore files of one directory. -/
structure Level where
  /-- The directory, as the names that lead there from the root. -/
  directory : Names
  own : RuleList
  general : RuleList
  versioned : RuleList
  workingCopy : RuleList
  /-- Is the directory the root of a repository? -/
  isRepository : Bool
deriving Inhabited

namespace Level

/-- The rules of a kind. -/
def rules (level : Level) : Kind → RuleList
  | .own => level.own
  | .general => level.general
  | .versioned => level.versioned
  | .workingCopy => level.workingCopy

/-- The first line of a file, if it is there and is text. -/
def firstLine? (disk : Disk) (path : String) : Option String :=
  ((disk.read path).toOption.bind fun text => (Text.lines text.toList).head?).map .ofList

/-- The rules of a working copy that shares the records of another one: `.git` is then a file that
names a directory, in which a file names the directory of the shared records. -/
def sharedRules (disk : Disk) (directory : Names) : RuleList :=
  let found := do
    let line ← firstLine? disk ("/" ++ Text.joinWith "/" (directory ++ [".git"]))
    let records := String.ofList (← Text.stripPrefix? "gitdir: ".toList line.toList)
    let shared ← firstLine? disk (Disk.joinPath records "commondir")
    let shared := if shared.toList.head? = some '.' then Disk.joinPath records shared else shared
    (disk.locate (Disk.joinPath shared "info/exclude")).toOption.map (·.2)
  RuleList.ofEntry found

/-- The ignore files of the directory that the names lead to. -/
def ofDirectory (disk : Disk) (directory : Names) (entry : Entry) : Level :=
  let read (kind : Kind) := RuleList.ofEntry (entry.descendant? kind.names)
  let records := entry.child? ".git"
  { directory
    own := read .own
    general := read .general
    versioned := read .versioned
    workingCopy := match records with
      | some (.file _) => sharedRules disk directory
      | _ => read .workingCopy
    isRepository := records.isSome || (entry.child? ".jj").isSome }

/-- The levels above a directory, the nearest one first. -/
def above (disk : Disk) (directory : Names) : List Level :=
  ((List.range directory.length).reverse.map directory.take).filterMap fun names =>
    (disk.root.descendant? names).map (ofDirectory disk names)

/-- What the files of a kind say about an entry below their directory. -/
def verdict? (level : Level) (kind : Kind) (entry : Names) (isDirectory : Bool) : Option Verdict :=
  (level.rules kind).verdict? (Text.joinWith "/" (entry.drop level.directory.length)) isDirectory

/-- The faults of the level's files, as text. -/
def faults (level : Level) : List (String × Fault) :=
  Kind.all.flatMap fun kind =>
    let path := "/" ++ Text.joinWith "/" (level.directory ++ kind.names)
    (level.rules kind).reported.map (path, ·)

end Level

/-- Of levels from the inside out, those that belong to the innermost repository. -/
def insideRepository (levels : List Level) : List Level :=
  match levels.span (!·.isRepository) with
  | (_, []) => []
  | (inside, root :: _) => inside ++ [root]

/-- The levels whose files of a kind count. -/
def levelsFor (kind : Kind) (levels : List Level) : List Level :=
  if kind.needsRepository then insideRepository levels else levels

/-- What the ignore files of some levels, from the inside out, say about an entry. -/
def verdict? (levels : List Level) (entry : Names) (isDirectory : Bool) : Option Verdict :=
  Kind.all.findSome? fun kind =>
    (levelsFor kind levels).findSome? (·.verdict? kind entry isDirectory)

/-- Is a name one that is not shown without being asked for? -/
def isHidden (name : String) : Bool := name.toList.head? = some '.'

/-- Is an entry seen? A rule decides, and without one, its name. -/
def admits (levels : List Level) (entry : Names) (isDirectory : Bool) : Bool :=
  match verdict? levels entry isDirectory with
  | some .ignored => false
  | some .admitted => true
  | none => !entry.getLast?.any isHidden

@[simp] theorem insideRepository_nil : insideRepository [] = [] := rfl

@[simp] theorem verdict?_nil (entry : Names) (isDirectory : Bool) :
    verdict? [] entry isDirectory = none := rfl

end PackageGraph.Ignore
