import PackageGraph.Go.Token
import PackageGraph.Go.Tree
import PackageGraph.Parser

/-!
# Reading tokens

Single tokens, lists with commas, and the rules on line breaks, which may end a statement.

## Main definitions

* `mark`, `keyword`, `identifier`: single tokens.
* `commaList`, `enclosedList`, `lines`: repetitions with separators.
* `terminator`, `stays`: the rules on line breaks.
-/

namespace PackageGraph.Go

open PackageGraph.Parser

/-- Reads tokens from the front of a list. -/
abbrev Parse := Parser Token

namespace Parse

/-! ### Single tokens -/

def isMark (text : String) (token : Token) : Bool := token.kind = .mark && token.text == text

def isKeyword (text : String) (token : Token) : Bool :=
  token.kind = .keyword && token.text == text

/-- Read a mark. -/
def mark (text : String) : Parse Unit := discard (satisfy (isMark text))

/-- Read a keyword. -/
def keyword (text : String) : Parse Unit := discard (satisfy (isKeyword text))

def seesMark (text : String) : Parse Bool := sees (isMark text)

def seesKeyword (text : String) : Parse Bool := sees (isKeyword text)

/-- Read one of some marks. -/
def oneOfMarks (texts : List String) : Parse String := do
  return (← satisfy fun t => t.kind = .mark && texts.contains t.text).text

/-- Read an identifier. -/
def identifier : Parse String := return (← satisfy (·.kind = .identifier)).text

/-- Read a text literal, quotes included. -/
def text : Parse String := return (← satisfy (·.kind = .text)).text

/-! ### Repetition -/

/-- Read one or more `p` with commas between them. -/
def commaList {α : Type} (p : Parse α) : Parse (List α) := do
  let first ← p
  let rest ← many (do
    mark ","
    p)
  return first :: rest

/-- Read any number of `p` between two marks, with commas between them and perhaps after the last
one. -/
def enclosedList {α : Type} (opening : String) (p : Parse α) (closing : String) :
    Parse (List α) := do
  mark opening
  if ← seesMark closing then
    mark closing
    return []
  let items ← commaList p
  discard (optional (mark ","))
  mark closing
  return items

/-! ### Line breaks -/

/-- Where an expression or a type stands, which decides what may end it. -/
inductive Context where
  /-- A line break ends it. -/
  | line
  /-- Only the token that closes what it is enclosed in ends it. -/
  | enclosed
  /-- It stands before the block of a statement, so that a brace after a name begins the block. -/
  | header
deriving DecidableEq, Inhabited

/-- Succeed unless a line break ends what was read. -/
def stays (context : Context) : Parse Unit := do
  if context = .line ∧ (← sees (·.afterBreak)) then failure

/-- Read the end of a statement: a line break, a semicolon or the end of the source. -/
def terminator : Parse Unit := do
  match ← get with
  | [] => return ()
  | token :: _ => if token.afterBreak then return () else mark ";" <|> mark "\x00"

/-- Read items that are ended by line breaks or semicolons; the last one needs none before a closing
mark. -/
def lines {α : Type} (closing : String) (p : Parse α) : Parse (List α) :=
  many do
    let item ← p
    if !(← seesMark closing) then terminator
    return item

end Parse

end PackageGraph.Go
