import PackageGraph.Go.Grammar.Declaration

/-!
# Statements

The rules for statements and for the lists of them. Statements are ended by line breaks or
semicolons. A semicolon by itself is an empty statement; two of them need a line break between them.
-/

namespace PackageGraph.Go.Grammar

open PackageGraph.Parser Parse

/-! ### Lists of statements -/

/-- Read items up to where `closed` holds. All but the last are ended; an empty statement is ended by
a line break. The clock bounds the number of items. -/
def statementsWithin (item : Parse Tree) (closed : Parse Bool) :
    (clock : List Token) → Parse (List Tree)
  | [] => do if ← closed then return [] else failure
  | _ :: clock => do
    if ← closed then return []
    if ← seesMark ";" then
      mark ";"
      if ← closed then return []
      if ← sees (!·.afterBreak) then failure
      statementsWithin item closed clock
    else
      let first ← item
      if ← closed then return [first]
      terminator
      return first :: (← statementsWithin item closed clock)

/-- Read all items up to where `closed` holds. -/
def statementsUntil (item : Parse Tree) (closed : Parse Bool) : Parse (List Tree) := do
  statementsWithin item closed (← get)

/-- Does a block or one of its clauses end here? -/
def seesClose : Parse Bool :=
  sees fun t => isMark "\x7d" t || isKeyword "case" t || isKeyword "default" t

/-- The statements of a block or of one of its clauses. -/
def statements (recur : Recur) : Parse (List Tree) := statementsUntil recur.statement seesClose

/-- Statements in braces. -/
def block (recur : Recur) : Parse Tree := do
  mark "\x7b"
  let items ← statements recur
  mark "\x7d"
  return .ofForm .block items

/-! ### Simple statements -/

/-- The marks that assign to what stands before them. -/
def assignmentMarks : List String :=
  [":=", "=", "+=", "-=", "*=", "/=", "%=", "&=", "|=", "^=", "<<=", ">>=", "&^="]

/-- A statement without a keyword. -/
structure Simple where
  tree : Tree
  /-- Is it an expression and nothing else? -/
  isExpression : Bool
  /-- Does it declare what it assigns to? -/
  declares : Bool

/-- An assignment to what was read. -/
def assignment (recur : Recur) (context : Context) (left : List Tree) : Parse Simple := do
  stays context
  let operator ← oneOfMarks assignmentMarks
  let right ← recur.values context
  return ⟨.ofForm .assignment (left ++ right), false, operator == ":="⟩

/-- The rest of a simple statement that begins with one expression. -/
def afterExpression (recur : Recur) (context : Context) (left : Tree) : Parse Simple :=
  (do
    stays context
    discard (oneOfMarks ["++", "--"])
    return ⟨.ofForm .assignment [left], false, false⟩) <|>
  (do
    stays context
    mark "<-"
    return ⟨.ofForm .simple [left, ← recur.value context], false, false⟩) <|>
  return ⟨.ofForm .simple [left], true, false⟩

/-- The rest of a simple statement behind its first expressions. -/
def simpleRest (recur : Recur) (context : Context) (left : List Tree) : Parse Simple :=
  assignment recur context left <|>
  match left with
  | [one] => afterExpression recur context one
  | _ => failure

/-- A statement without a keyword: an expression, an assignment, a count or a send. -/
def simple (recur : Recur) (context : Context) : Parse Simple := do
  simpleRest recur context (← recur.values context)

/-! ### Branches and loops -/

/-- The alternative of a branch, which has to begin on the line where the branch ends. -/
def alternative (recur : Recur) : Parse Tree := do
  stays .line
  keyword "else"
  if ← seesKeyword "if" then recur.statement else recur.block

/-- A branch, with a statement before its condition or not. -/
def branch (recur : Recur) : Parse Tree := do
  keyword "if"
  let first ← simple recur .header
  let condition ← do
    if ← seesMark ";" then
      mark ";"
      pure [← recur.value .header]
    else if first.isExpression then pure []
    else failure
  let consequence ← recur.block
  let otherwise ← optional (alternative recur)
  return .ofForm .branch (first.tree :: condition ++ consequence :: otherwise.toList)

/-- The rest of a loop's header behind its first statement: the condition and the step. -/
def loopRest (recur : Recur) : Parse (List Tree) := do
  mark ";"
  let condition ← if ← seesMark ";" then pure [] else pure [← recur.value .header]
  mark ";"
  let step ← if ← seesMark "\x7b" then pure [] else pure [(← simple recur .header).tree]
  return condition ++ step

/-- What a loop ranges over. -/
def rangeOver (recur : Recur) : Parse Tree := do
  keyword "range"
  recur.value .header

/-- The header of a loop that begins with expressions. -/
def expressionHeader (recur : Recur) : Parse (List Tree) := do
  let left ← recur.values .header
  let range ← optional do
    discard (oneOfMarks [":=", "="])
    rangeOver recur
  match range with
  | some operand => return left ++ [operand]
  | none =>
    let first ← simpleRest recur .header left
    if ← seesMark ";" then return first.tree :: (← loopRest recur)
    if first.isExpression then return [first.tree] else failure

/-- The header of a loop. -/
def loopHeader (recur : Recur) : Parse (List Tree) := do
  let first ← peek
  match first.text with
  | "\x7b" => return []
  | ";" => loopRest recur
  | "range" => return [← rangeOver recur]
  | _ => expressionHeader recur

def loop (recur : Recur) : Parse Tree := do
  keyword "for"
  let header ← loopHeader recur
  return .ofForm .loop (header ++ [← recur.block])

/-! ### Switches and selections -/

/-- A clause: what it is for, and its statements. -/
def clause (recur : Recur) (guard : Parse (List Tree)) : Parse Tree := do
  let first ← (do keyword "default"; return []) <|> (do keyword "case"; guard)
  mark ":"
  return .ofForm .clause (first ++ (← statements recur))

/-- Clauses in braces. -/
def clauses (recur : Recur) (guard : Parse (List Tree)) : Parse Tree := do
  mark "\x7b"
  let items ← many (clause recur guard)
  mark "\x7d"
  return .ofForm .body items

/-- The mark of a switch over types, behind the value whose type is looked at. -/
def typeGuard : Parse Unit := do
  mark "."
  mark "("
  keyword "type"
  mark ")"

/-- A part of the header of a switch. -/
structure SwitchPart where
  simple : Simple
  /-- Is it the value of a switch over types? -/
  overTypes : Bool

def switchPart (recur : Recur) : Parse SwitchPart := do
  let simple ← simple recur .header
  if simple.isExpression ∨ simple.declares then
    let guard ← optional typeGuard
    return ⟨simple, guard.isSome⟩
  return ⟨simple, false⟩

/-- The clauses of a switch behind the last part of its header. -/
def switchClauses (recur : Recur) (part : SwitchPart) : Parse Tree :=
  if part.overTypes then clauses recur (commaList (recur.type .enclosed))
  else if part.simple.isExpression then clauses recur (recur.values .enclosed)
  else failure

/-- A switch over a value, over a type or over conditions. -/
def switch (recur : Recur) : Parse Tree := do
  keyword "switch"
  if ← seesMark "\x7b" then
    return .ofForm .choice [← clauses recur (recur.values .enclosed)]
  let first ← switchPart recur
  if !(← seesMark ";") then
    return .ofForm .choice [first.simple.tree, ← switchClauses recur first]
  if first.overTypes then failure
  mark ";"
  if ← seesMark "\x7b" then
    return .ofForm .choice [first.simple.tree, ← clauses recur (recur.values .enclosed)]
  let second ← switchPart recur
  return .ofForm .choice [first.simple.tree, second.simple.tree, ← switchClauses recur second]

/-- A selection among channel operations. -/
def selection (recur : Recur) : Parse Tree := do
  keyword "select"
  let operation : Parse (List Tree) := return [(← simple recur .enclosed).tree]
  return .ofForm .choice [← clauses recur operation]

/-! ### All statements -/

/-- A statement that leaves a place, with the keyword that says where to. -/
def jump (recur : Recur) (word : String) : Parse Tree := do
  keyword word
  match word with
  | "return" =>
    let values ← optional do
      stays .line
      recur.values .line
    return .ofForm .jump (values.getD [])
  | "goto" =>
    discard identifier
    return .ofForm .jump []
  | "fallthrough" => return .ofForm .jump []
  | _ =>
    discard (optional do
      stays .line
      identifier)
    return .ofForm .jump []

/-- A call that runs beside the function or after it. -/
def deferred (recur : Recur) (word : String) : Parse Tree := do
  keyword word
  return .ofForm .simple [← recur.value .line]

/-- A statement that begins with a keyword. -/
def keywordStatement (recur : Recur) (word : String) : Parse Tree := do
  if ["var", "const", "type"].contains word then declaration recur word
  else if ["return", "break", "continue", "goto", "fallthrough"].contains word then
    jump recur word
  else if ["go", "defer"].contains word then deferred recur word
  else
    match word with
    | "if" => branch recur
    | "for" => loop recur
    | "switch" => switch recur
    | "select" => selection recur
    | _ => return (← simple recur .line).tree

/-- Does a label begin here? -/
def seesLabel : Parse Bool := do
  match ← get with
  | name :: colon :: _ =>
    return name.kind = .identifier && !constantWords.contains name.text && isMark ":" colon
  | _ => return false

/-- A label with the statement behind it, which is empty before the end of a block. -/
def labelled (recur : Recur) : Parse Tree := do
  discard identifier
  mark ":"
  if ← seesMark ";" then
    mark ";"
    return .ofForm .labelled []
  return .ofForm .labelled (← optional recur.statement).toList

/-- A statement that is not empty. -/
def statement (recur : Recur) : Parse Tree := do
  if ← seesLabel then return ← labelled recur
  let first ← peek
  match first.kind with
  | .keyword => keywordStatement recur first.text
  | .mark => if first.text == "\x7b" then recur.block else return (← simple recur .line).tree
  | _ => return (← simple recur .line).tree

end PackageGraph.Go.Grammar
