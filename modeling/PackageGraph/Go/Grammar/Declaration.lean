import PackageGraph.Go.Grammar.Expression

/-!
# Declarations

The rules for constants, variables and types, which may stand alone or in a group in parentheses,
and for imports and functions.
-/

namespace PackageGraph.Go.Grammar

open PackageGraph.Parser Parse

/-! ### Constants, variables and types -/

/-- The values behind an equals sign. -/
def initialValues (recur : Recur) : Parse (List Tree) := do
  mark "="
  recur.values .line

/-- Constants, which repeat the values before them if they have none. -/
def constantSpec (recur : Recur) : Parse Tree := do
  discard (commaList identifier)
  let parts ← optional do
    stays .line
    let type ← if ← seesMark "=" then pure none else some <$> recur.type .line
    return type.toList ++ (← initialValues recur)
  return .ofForm .declaration (parts.getD [])

/-- Variables, with a type, values or both. -/
def variableSpec (recur : Recur) : Parse Tree := do
  discard (commaList identifier)
  if ← seesMark "=" then return .ofForm .declaration (← initialValues recur)
  let type ← recur.type .line
  let values ← optional do
    stays .line
    initialValues recur
  return .ofForm .declaration (type :: values.getD [])

/-- A type of its own or an alias, with type parameters or not. -/
def typeSpec (recur : Recur) : Parse Tree := do
  discard identifier
  let definition (parameters : List Tree) : Parse Tree := do
    discard (optional (mark "="))
    return .ofForm .declaration (parameters ++ [← recur.type .line])
  -- Type parameters and the length of an array both begin with a bracket.
  (do definition [← typeParameters recur]) <|> definition []

/-- Items of a group that each have an end of their own. -/
def endedItems (p : Parse Tree) : Parse (List Tree) :=
  many do
    let item ← p
    terminator
    return item

/-- Constants in parentheses. A single item needs no end of its own. -/
def constantGroup (recur : Recur) : Parse (List Tree) := do
  let items ← endedItems (constantSpec recur)
  if items.isEmpty then return (← optional (constantSpec recur)).toList
  return items

/-- One item, or a group of them in parentheses. -/
def declared (form : Form) (single : Parse Tree) (group : Parse (List Tree)) : Parse Tree := do
  if ← seesMark "(" then
    mark "("
    let items ← group
    mark ")"
    return .ofForm form items
  return .ofForm form [← single]

/-- A declaration of constants, variables or types. -/
def declaration (recur : Recur) (word : String) : Parse Tree := do
  keyword word
  match word with
  | "const" => declared .constants (constantSpec recur) (constantGroup recur)
  | "var" => declared .variables (variableSpec recur) (endedItems (variableSpec recur))
  | "type" => declared .types (typeSpec recur) (lines ")" (typeSpec recur))
  | _ => failure

/-! ### Imports and packages -/

/-- One import, with a name or a point before its path or not. -/
def importSpec : Parse Tree := do
  let name ← optional (identifier <|> oneOfMarks ["."])
  return .leaf (.importSpec name (← text))

def importDeclaration : Parse Tree := do
  keyword "import"
  if ← seesMark "(" then
    mark "("
    let specs ← lines ")" importSpec
    mark ")"
    return .ofForm .importDeclaration [.ofForm .importList specs]
  return .ofForm .importDeclaration [← importSpec]

def packageClause : Parse Tree := do
  keyword "package"
  return .leaf (.packageClause (← identifier))

/-! ### Functions -/

/-- The block of a function, which has to begin on the line where the function is declared. -/
def functionBlock (recur : Recur) : Parse (List Tree) := do
  if ← sees fun t => isMark "\x7b" t && !t.afterBreak then return [← recur.block]
  return []

/-- A function with its name, perhaps without a block. -/
def function (recur : Recur) : Parse Tree := do
  keyword "func"
  discard identifier
  let parameters ← optional (typeParameters recur)
  let signature ← signature recur .line
  return .ofForm .function (parameters.toList ++ signature :: (← functionBlock recur))

/-- A method: a function with a receiver before its name. -/
def methodDeclaration (recur : Recur) : Parse Tree := do
  keyword "func"
  let receiver ← parameters recur
  discard identifier
  let signature ← signature recur .line
  return .ofForm .method (receiver :: signature :: (← functionBlock recur))

end PackageGraph.Go.Grammar
