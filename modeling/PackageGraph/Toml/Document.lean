import PackageGraph.Toml.Scalar

/-!
# TOML documents

A document is read line by line; the lines are then put together into one table.

## Main definitions

* `value`: a value of any kind, with a bound on its nesting.
* `Line` and `line`: what a line of a document says.
* `ofText?`: the table of a document, or `none` if its text is not well-formed or defines something
  twice.
-/

namespace PackageGraph.Toml

open PackageGraph.Parser

/-! ### Keys -/

/-- The characters of a key without quotes. -/
def isBare (c : Char) : Bool := c.isAlphanum || c = '_' || c = '-'

/-- A key without dots. -/
def simpleKey : Read String :=
  lineText <|> (do
    let cs ← takeWhile isBare
    if cs.isEmpty then failure
    return .ofList cs)

/-- A key with the keys before its last dot. -/
def key : Read (List String × String) := do
  let first ← simpleKey
  let rest ← many do
    blanks
    character '.'
    blanks
    simpleKey
  let all := first :: rest
  return (all.dropLast, all.getLastD first)

/-! ### Values -/

/-- Read a comment, if there is one. -/
def comment : Read Unit := do
  if ← seesCharacter '#' then discard (takeWhile isPrintable)

/-- Read blanks, comments and line breaks. -/
def trivia : Read Unit :=
  discard (many do
    discard (satisfy isBlank) <|> (do
      comment
      discard lineBreak))

/-- Read items in brackets or braces, with commas between them and perhaps after the last one. -/
def itemsBetween {α : Type} (opening : Char) (item : Read α) (closing : Char) : Read (List α) := do
  character opening
  trivia
  let items ← many do
    let found ← item
    trivia
    if ← seesCharacter closing then return found
    character ','
    trivia
    return found
  character closing
  return items

/-- An entry of a table: a key, an equals sign and a value. -/
def entry (value : Read Value) : Read ((List String × String) × Value) := do
  let key ← key
  blanks
  character '='
  blanks
  return (key, ← value)

/-- Put the entries of a table in braces together. -/
def tableInBraces (entries : List ((List String × String) × Value)) : Option Entries :=
  entries.foldlM (fun table ((path, key), value) => table.addEntry? path key value .braces) []

/-- A value whose arrays and tables in braces are not nested more deeply than a bound. -/
def value : (depth : Nat) → Read Value
  | 0 => (do return .text (← anyText)) <|> scalar
  | depth + 1 => do
    if ← seesCharacter '[' then
      return .array false (← itemsBetween '[' (value depth) ']')
    if ← seesCharacter '\x7b' then
      let entries ← itemsBetween '\x7b' (entry (value depth)) '\x7d'
      return .table .braces (← StateT.lift (tableInBraces entries))
    (do return .text (← anyText)) <|> scalar

/-- How deeply arrays and tables in braces may be nested. -/
def greatestDepth : Nat := 80

/-! ### Lines -/

/-- What a line of a document says. -/
inductive Line where
  | nothing
  | entry (path : List String) (key : String) (value : Value)
  /-- The header of a table. -/
  | table (path : List String) (key : String)
  /-- The header of an element of an array of tables. -/
  | element (path : List String) (key : String)
deriving Inhabited

/-- A key between the brackets of a header. -/
def headerKey (opening closing : List Char) : Read (List String × String) := do
  characters opening
  blanks
  let key ← key
  blanks
  characters closing
  return key

/-- What a line says, without its end. -/
def lineContent : Read Line :=
  (do
    let (path, key) ← headerKey ['[', '['] [']', ']']
    return .element path key) <|>
  (do
    let (path, key) ← headerKey ['['] [']']
    return .table path key) <|>
  (do
    let ((path, key), value) ← entry (value greatestDepth)
    return .entry path key value) <|>
  return .nothing

/-- A line with its end. -/
def line : Read Line := do
  if ← atEnd then failure
  blanks
  let content ← lineContent
  blanks
  comment
  if !(← atEnd) then discard lineBreak
  return content

/-! ### Documents -/

/-- A document that is being put together. -/
structure Draft where
  /-- The table of the whole document. -/
  root : Entries
  /-- The way to the table that entries are added to. -/
  place : List String

/-- Add what a line says. -/
def Draft.add? (draft : Draft) : Line → Option Draft
  | .nothing => some draft
  | .entry path key value => do
    let root ← draft.root.changeAt? false
      (fun origin entries => entries.addEntry? path key value origin) draft.place .header
    return { draft with root }
  | .table path key => return ⟨← draft.root.openTable? path key, path ++ [key]⟩
  | .element path key => return ⟨← draft.root.openElement? path key, path ++ [key]⟩

/-- The table of some lines. -/
def ofLines? (lines : List Line) : Option Entries :=
  (lines.foldlM Draft.add? ⟨[], []⟩).map Draft.root

/-- A text without the mark that may stand before it. -/
def dropByteOrderMark : List Char → List Char
  | [] => []
  | c :: rest => if c = '\ufeff' then rest else c :: rest

/-- The table of a document. -/
def ofText? (text : String) : Option Entries :=
  (readAll? (many line) (dropByteOrderMark text.toList)).bind ofLines?

@[simp] theorem ofLines?_nil : ofLines? [] = some [] := rfl

end PackageGraph.Toml
