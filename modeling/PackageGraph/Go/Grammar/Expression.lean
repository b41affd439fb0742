import PackageGraph.Go.Grammar.Type

/-!
# Expressions

The rules for expressions. Values and types cannot be told apart from the left, so an operand is
read as both until a suffix or the end decides. All binary operators are read into one flat form,
since nothing here depends on how tightly they bind.
-/

namespace PackageGraph.Go.Grammar

open PackageGraph.Parser Parse

/-! ### Literals -/

/-- A key or a value of a literal body; an element's own type may be left out. -/
def elementPart (recur : Recur) : Parse Tree := do
  if ← seesMark "\x7b" then recur.body else recur.value .enclosed

/-- An element of a literal body, with its key if it has one. -/
def element (recur : Recur) : Parse Tree := do
  let first ← elementPart recur
  if ← seesMark ":" then
    mark ":"
    return .ofForm .element [first, ← elementPart recur]
  return .ofForm .element [first]

/-- The elements of a literal in braces. -/
def body (recur : Recur) : Parse Tree :=
  return .ofForm .body (← enclosedList "\x7b" (element recur) "\x7d")

/-- The words that are values in every expression. -/
def constantWords : List String := ["nil", "true", "false", "iota"]

/-- A function with its block, or the type of a function. -/
def functionLiteral (recur : Recur) (context : Context) : Parse Operand := do
  let type ← functionType recur context
  if ← seesMark "\x7b" then
    return .value (.ofForm .function [type, ← recur.block])
  return .type type .never

/-- An array type, whose length may be left to the elements that follow it. -/
def arrayOperand (recur : Recur) (context : Context) : Parse Operand :=
  (do
    mark "["
    mark "..."
    mark "]"
    let tree := Tree.ofForm .arrayType [← recur.type context]
    return ⟨tree, false, false, .afterType⟩) <|>
  (do return .type (← recur.type context) .afterType)

/-- An operand in parentheses. -/
def parenthesized (recur : Recur) : Parse Operand := do
  mark "("
  let inner ← recur.operand .enclosed
  mark ")"
  return { inner with tree := .ofForm .parentheses [inner.tree], body := .never }

/-- An operand that begins with a keyword. -/
def keywordOperand (recur : Recur) (context : Context) (text : String) : Parse Operand :=
  match text with
  | "func" => functionLiteral recur context
  | "struct" => return .type (← recur.type context) .afterType
  | "map" => return .type (← recur.type context) .afterType
  | _ => return .type (← recur.type context) .never

/-- An operand without operators and suffixes. -/
def simpleOperand (recur : Recur) (context : Context) : Parse Operand := do
  let first ← peek
  match first.kind with
  | .identifier =>
    let name ← identifier
    if constantWords.contains name then return .value (.leaf (.token name))
    return ⟨.leaf (.identifier name), true, true, .afterName⟩
  | .keyword => keywordOperand recur context first.text
  | .mark =>
    match first.text with
    | "(" => parenthesized recur
    | "[" => arrayOperand recur context
    | _ => return .type (← channelType recur context) .never
  | _ => return .value (.leaf (.token (← satisfy fun _ => true).text))

/-! ### Suffixes -/

/-- Is the tree an identifier and nothing else? -/
def isBare : Tree → Bool
  | .node (.identifier _) _ => true
  | _ => false

/-- A field of an operand, or a type assertion. -/
def member (recur : Recur) (operand : Operand) : Parse Operand := do
  if !operand.isValue then failure
  mark "."
  if ← seesMark "(" then
    mark "("
    let type ← recur.type .enclosed
    mark ")"
    return .value (.ofForm .assertion [operand.tree, type])
  let field ← identifier
  let tree := Tree.node (.selector field) [operand.tree]
  -- A field of an identifier may also be a type of the package that the identifier names.
  return if isBare operand.tree then ⟨tree, true, true, .afterName⟩ else .value tree

/-- May the first argument of this function be a type? -/
def takesType : Tree → Bool
  | .node (.identifier name) _ => name == "new" || name == "make"
  | _ => false

/-- An argument of a call. The last one may be spread. -/
def argument (recur : Recur) : Parse Operand := do
  let operand ← recur.operand .enclosed
  discard (optional (mark "..."))
  return operand

/-- The arguments of a call, or the value that a type is applied to. -/
def application (recur : Recur) (operand : Operand) : Parse Operand := do
  let arguments ← enclosedList "(" (argument recur) ")"
  let fixed := if takesType operand.tree then arguments.drop 1 else arguments
  if fixed.any (!·.isValue) then failure
  let parts := operand.tree :: arguments.map (·.tree)
  if operand.isValue then return .value (.ofForm .call parts)
  if operand.isType ∧ arguments.length = 1 then return .value (.ofForm .conversion parts)
  failure

/-- What follows the colon of a slice. -/
def sliceEnd (recur : Recur) : Parse (List Tree) := do
  mark ":"
  let upper ← optional (recur.value .enclosed)
  if upper.isSome ∧ (← seesMark ":") then
    mark ":"
    return upper.toList ++ [← recur.value .enclosed]
  return upper.toList

/-- An index, a slice, or the arguments of a generic type or function. -/
def indexing (recur : Recur) (operand : Operand) : Parse Operand := do
  if !operand.isValue then failure
  mark "["
  if ← seesMark ":" then
    let bounds ← sliceEnd recur
    mark "]"
    return .value (.ofForm .index (operand.tree :: bounds))
  let items ← commaList (recur.operand .enclosed)
  if ← seesMark ":" then
    let bounds ← sliceEnd recur
    mark "]"
    if items.any (!·.isValue) ∨ items.length ≠ 1 then failure
    return .value (.ofForm .index (operand.tree :: items.map (·.tree) ++ bounds))
  let spread ← optional (mark ",")
  mark "]"
  let tree := Tree.ofForm .index (operand.tree :: items.map (·.tree))
  if operand.isType ∧ items.all (·.isType) then return ⟨tree, true, true, operand.body⟩
  -- What is no list of types is a single index.
  if items.all (·.isValue) ∧ items.length = 1 ∧ spread.isNone then return .value tree
  failure

/-- A literal body behind a type. -/
def literal (recur : Recur) (context : Context) (operand : Operand) : Parse Operand := do
  let allowed := match operand.body with
    | .never => false
    | .afterName => context ≠ .header
    | .afterType => true
  if !allowed then failure
  return .value (.ofForm .literal [operand.tree, ← recur.body])

/-- One suffix of an operand. -/
def suffix (recur : Recur) (context : Context) (operand : Operand) : Parse Operand := do
  stays context
  let first ← peek
  match first.text with
  | "." => member recur operand
  | "(" => application recur operand
  | "[" => indexing recur operand
  | "\x7b" => literal recur context operand
  | _ => failure

/-! ### Operators -/

/-- The operators before an operand. -/
def prefixOperators : List String := ["+", "-", "!", "^", "*", "&", "<-"]

/-- The operators between operands. -/
def binaryOperators : List String :=
  ["*", "/", "%", "<<", ">>", "&", "&^", "+", "-", "|", "^", "==", "!=", "<", "<=", ">", ">=",
    "&&", "||"]

/-- Is the next arrow the beginning of a channel type? -/
def seesChannel : Parse Bool := do
  match ← get with
  | first :: second :: _ => return isMark "<-" first && isKeyword "chan" second
  | _ => return false

/-- An operator before an operand. -/
def prefixOperator : Parse String := do
  if ← seesChannel then failure
  oneOfMarks prefixOperators

/-- Put an operator before an operand. Only a star leaves a type a type. -/
def applyPrefix (operator : String) (operand : Operand) : Parse Operand := do
  let tree := Tree.ofForm .unary [.leaf (.token operator), operand.tree]
  if operator = "*" then return { operand with tree, body := .never }
  if operand.isValue then return .value tree
  failure

/-- An operand with the operators before it and the suffixes behind it. -/
def unary (recur : Recur) (context : Context) : Parse Operand := do
  let operators ← many prefixOperator
  let operand ← chain (suffix recur context) (← simpleOperand recur context)
  operators.foldrM applyPrefix operand

/-- An operator and the operand behind it. -/
def binaryRest (recur : Recur) (context : Context) : Parse (List Tree) := do
  stays context
  let operator ← oneOfMarks binaryOperators
  let operand ← unary recur context
  if operand.isValue then return [.leaf (.token operator), operand.tree]
  failure

/-- A value or a type. -/
def operand (recur : Recur) (context : Context) : Parse Operand := do
  let first ← unary recur context
  let rest ← many (binaryRest recur context)
  if rest.isEmpty then
    if first.isValue ∨ first.isType then return first else failure
  if first.isValue then return .value (.ofForm .binary (first.tree :: rest.flatten))
  failure

end PackageGraph.Go.Grammar
