import PackageGraph.Go.Identifier
import PackageGraph.Go.Literal
import PackageGraph.Text.Basic

/-!
# Tokens of Go

A source is cut into tokens; white space and comments between them are dropped. A line break may
end a statement, so each token remembers whether one stands before it.

## Main definitions

* `Token`: a token with its kind and its text.
* `tokens?`: the tokens of a source, or `none` if some part of it is no token.
-/

namespace PackageGraph.Go

open Text

/-- The kinds of tokens. -/
inductive TokenKind where
  | identifier
  | keyword
  | number
  | rune
  | text
  /-- An operator or a punctuation mark. -/
  | mark
deriving DecidableEq, Inhabited

/-- A token of a source. -/
structure Token where
  kind : TokenKind
  /-- The token as it is written. -/
  text : String
  /-- Does a line break stand before the token, outside comments? -/
  afterBreak : Bool
  /-- A token has at least one character. -/
  nonempty : text ≠ ""
deriving DecidableEq

instance : Inhabited Token := ⟨⟨.mark, ";", false, by decide⟩⟩

/-- The words that cannot be identifiers. -/
def keywords : List String :=
  ["break", "case", "chan", "const", "continue", "default", "defer", "else", "fallthrough", "for",
    "func", "go", "goto", "if", "import", "interface", "map", "package", "range", "return",
    "select", "struct", "switch", "type", "var"]

/-- Operators and punctuation, none before a longer one that begins with it. A NUL character ends a
statement as a semicolon does. -/
def marks : List String :=
  ["<<=", ">>=", "&^=", "...", "<<", ">>", "&^", "&&", "||", "==", "!=", "<=", ">=", "<-", "++",
    "--", ":=", "+=", "-=", "*=", "/=", "%=", "&=", "|=", "^=", "+", "-", "*", "/", "%", "&", "|",
    "^", "!", "<", ">", "=", "~", ".", ",", ";", ":", "(", ")", "[", "]", "\x7b", "\x7d", "\x00"]

/-! ### Comments -/

/-- What follows a comment between `/*` and `*/`, after its beginning. -/
def afterBlockComment : List Char → Option (List Char)
  | [] => none
  | '*' :: '/' :: rest => some rest
  | _ :: rest => afterBlockComment rest

/-- What follows a comment at the beginning of a source. The end of a line is no part of the
comment, and a block comment without an end is none. -/
def afterComment? : List Char → Option (List Char)
  | '/' :: '/' :: rest => some (rest.dropWhile (· != '\n'))
  | '/' :: '*' :: rest => afterBlockComment rest
  | _ => none

/-! ### Tokens -/

/-- An identifier or a keyword at the beginning of a source, and what follows it. -/
def readWord (cs : List Char) : Option (TokenKind × List Char × List Char) :=
  match cs with
  | [] => none
  | c :: _ =>
    if Identifier.isStart c then
      let word := cs.takeWhile Identifier.isContinue
      let kind := if keywords.contains (.ofList word) then .keyword else .identifier
      some (kind, word, cs.dropWhile Identifier.isContinue)
    else none

/-- A match of a pattern at the beginning of a source, and what follows it. -/
def readPattern (kind : TokenKind) (pattern : Pattern) (cs : List Char) :
    Option (TokenKind × List Char × List Char) :=
  (pattern cs).map fun n => (kind, cs.take n, cs.drop n)

/-- A text literal at the beginning of a source, and what follows it. -/
def readText (cs : List Char) : Option (TokenKind × List Char × List Char) :=
  ((Literal.interpretedText cs).or (Literal.rawText cs)).map fun found => (.text, found)

/-- A mark at the beginning of a source, and what follows it. -/
def readMark (cs : List Char) : Option (TokenKind × List Char × List Char) :=
  marks.findSome? fun mark =>
    (stripPrefix? mark.toList cs).map fun rest => (.mark, mark.toList, rest)

/-- The token at the beginning of a source, and what follows it. -/
def readToken (cs : List Char) : Option (TokenKind × List Char × List Char) :=
  (readWord cs).or <| (readPattern .number Literal.number cs).or <|
    (readPattern .rune Literal.rune cs).or <| (readText cs).or <| readMark cs

/-- White space between tokens: a space, or a character from the tab to the carriage return. No
other character with the property `White_Space` may stand between tokens. -/
def isSpace (c : Char) : Bool := c = ' ' || ('\t' ≤ c && c ≤ '\r')

/-- Cut a source into tokens; those cut off so far are held in reverse. Every step consumes a
character, which bounds the number of steps. -/
def tokensFrom : Nat → (afterBreak : Bool) → List Token → List Char → Option (List Token)
  | _, _, found, [] => some found.reverse
  | 0, _, _, _ :: _ => none
  | fuel + 1, afterBreak, found, c :: rest =>
    if isSpace c then tokensFrom fuel (afterBreak || c = '\n') found rest
    else
      match afterComment? (c :: rest) with
      | some rest => tokensFrom fuel afterBreak found rest
      | none =>
        match readToken (c :: rest) with
        | some (kind, text, rest) =>
          if h : text = [] then none
          else tokensFrom fuel false (⟨kind, .ofList text, afterBreak, by simpa using h⟩ :: found) rest
        | none => none

/-- The character that may mark the beginning of a source. -/
def byteOrderMark : Char := '\ufeff'

/-- A source without the mark that may stand before it. -/
def dropByteOrderMark : List Char → List Char
  | [] => []
  | c :: rest => if c = byteOrderMark then rest else c :: rest

/-- The tokens of a source. -/
def tokens? (source : List Char) : Option (List Token) :=
  let cs := dropByteOrderMark source
  tokensFrom cs.length false [] cs

@[simp] theorem tokens?_nil : tokens? [] = some [] := rfl

theorem marks_nonempty : ∀ mark ∈ marks, mark ≠ "" := by decide

end PackageGraph.Go
