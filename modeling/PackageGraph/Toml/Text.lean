import PackageGraph.Parser

/-!
# Texts in TOML

The four ways to write a text: with escapes or literally, on one line or on several.

## Main definitions

* `lineText`: a text on one line.
* `anyText`: a text in any of the four ways.
-/

namespace PackageGraph.Toml

open PackageGraph.Parser

/-- Reads characters from the front of a text. -/
abbrev Read := Parser Char

/-- Read one character. -/
def character (c : Char) : Read Unit := discard (satisfy (· == c))

def seesCharacter (c : Char) : Read Bool := sees (· == c)

/-- Read known characters. -/
def characters (cs : List Char) : Read Unit := cs.forM character

/-! ### Blanks and line breaks -/

def isBlank (c : Char) : Bool := c = ' ' || c = '\t'

/-- Read spaces and tabs. -/
def blanks : Read Unit := discard (takeWhile isBlank)

/-- A line break. A carriage return belongs to the line feed behind it. -/
def lineBreak : Read (List Char) :=
  (do
    character '\n'
    return ['\n']) <|>
  (do
    characters ['\r', '\n']
    return ['\r', '\n'])

/-- The characters that a comment may hold: all but control characters. -/
def isPrintable (c : Char) : Bool := c = '\t' || (0x20 ≤ c.toNat && c.toNat ≠ 0x7F)

/-! ### Escapes -/

/-- The number of a hexadecimal digit. -/
def hexDigit? (c : Char) : Option Nat :=
  if '0' ≤ c ∧ c ≤ '9' then some (c.toNat - '0'.toNat)
  else if 'a' ≤ c ∧ c ≤ 'f' then some (c.toNat - 'a'.toNat + 10)
  else if 'A' ≤ c ∧ c ≤ 'F' then some (c.toNat - 'A'.toNat + 10)
  else none

/-- A character by its number in hexadecimal digits. -/
def numbered (length : Nat) : Read Char := do
  let digits ← (List.replicate length ()).mapM fun _ => satisfy fun c => (hexDigit? c).isSome
  let n := digits.foldl (fun n c => n * 16 + (hexDigit? c).getD 0) 0
  if n.isValidChar then return Char.ofNat n else failure

/-- What follows the backslash of an escape. -/
def escape : Read Char := do
  let c ← satisfy fun _ => true
  match c with
  | 'b' => return '\x08'
  | 't' => return '\t'
  | 'n' => return '\n'
  | 'f' => return '\x0c'
  | 'r' => return '\r'
  | 'e' => return '\x1b'
  | '"' => return '"'
  | '\\' => return '\\'
  | 'x' => numbered 2
  | 'u' => numbered 4
  | 'U' => numbered 8
  | _ => failure

/-! ### Texts -/

/-- A character between double quotes. -/
def escapedCharacter : Read Char := do
  if ← seesCharacter '\\' then
    character '\\'
    escape
  else satisfy fun c => isPrintable c && c != '"'

/-- A text on one line. -/
def lineText : Read String :=
  (do
    character '"'
    let cs ← many escapedCharacter
    character '"'
    return .ofList cs) <|>
  (do
    character '\''
    let cs ← takeWhile fun c => isPrintable c && c != '\''
    character '\''
    return .ofList cs)

/-- Quotes inside a text on several lines, where three of them end it. -/
def innerQuotes (quote : Char) : Read (List Char) := do
  let quotes ← takeWhile (· == quote)
  if quotes.isEmpty ∨ 3 ≤ quotes.length then failure
  return quotes

/-- The end of a line that does not count, with the blanks and line breaks behind it. -/
def joinedLines : Read (List Char) := do
  character '\\'
  blanks
  discard lineBreak
  discard (many do
    discard lineBreak <|> discard (satisfy isBlank))
  return []

/-- A part of a text on several lines. -/
def textPart (quote : Char) : Read (List Char) :=
  innerQuotes quote <|> lineBreak <|>
  if quote = '"' then
    joinedLines <|> (do return [← escapedCharacter])
  else do return [← satisfy fun c => isPrintable c && c != quote]

/-- A text on several lines. A line break behind its opening quotes does not count, and up to two
quotes may stand before its closing ones. -/
def blockText (quote : Char) : Read String := do
  characters (List.replicate 3 quote)
  discard (optional lineBreak)
  let parts ← many (textPart quote)
  let quotes ← takeWhile (· == quote)
  if quotes.length < 3 ∨ 5 < quotes.length then failure
  return .ofList (parts.flatten ++ quotes.drop 3)

/-- A text in any form. -/
def anyText : Read String := blockText '"' <|> blockText '\'' <|> lineText

end PackageGraph.Toml
