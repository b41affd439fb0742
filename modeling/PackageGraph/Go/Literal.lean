import PackageGraph.Text.Pattern

/-!
# Literals of Go

How far a number, a rune or a text reaches at the beginning of a source.

## Main definitions

* `number`, `rune`: the patterns of numbers and runes.
* `interpretedText`, `rawText`: a text up to its closing quote, and what follows it.
-/

namespace PackageGraph.Go.Literal

open Text Text.Pattern

/-! ### Numbers -/

/-- A sign, or nothing. -/
def sign : Pattern := optional (oneOf "+-")

/-- An underscore, or nothing. -/
def underscore : Pattern := optional (oneOf "_")

/-- A whole number in any of the four bases. -/
def whole : Pattern := longest
  [seq [oneOf "0", oneOf "bB", underscore, digits isBinary],
    oneOf "0",
    seq [oneOf "123456789", optional (seq [underscore, digits isDecimal])],
    seq [oneOf "0", optional (oneOf "oO"), underscore, digits isOctal],
    seq [oneOf "0", oneOf "xX", underscore, digits isHex]]

/-- The exponent of a decimal fraction. -/
def decimalExponent : Pattern := seq [oneOf "eE", sign, digits isDecimal]

/-- A decimal number with a point or an exponent. -/
def decimalFraction : Pattern := longest
  [seq [digits isDecimal, oneOf ".", optional (digits isDecimal), optional decimalExponent],
    seq [digits isDecimal, decimalExponent],
    seq [oneOf ".", digits isDecimal, optional decimalExponent]]

/-- The digits of a hexadecimal fraction. -/
def mantissa : Pattern := longest
  [seq [underscore, digits isHex, oneOf ".", optional (digits isHex)],
    seq [underscore, digits isHex],
    seq [oneOf ".", digits isHex]]

/-- A hexadecimal number with an exponent. -/
def hexFraction : Pattern :=
  seq [oneOf "0", oneOf "xX", mantissa, oneOf "pP", sign, digits isDecimal]

/-- A real number. -/
def real : Pattern := longest [whole, decimalFraction, hexFraction]

/-- A number, which may be imaginary. -/
def number : Pattern :=
  longest [real, seq [longest [digits isDecimal, real], oneOf "i"]]

/-! ### Runes and texts -/

/-- The escapes inside a rune, after their backslash. -/
def runeEscape : Pattern := longest
  [oneOf "abfnrtv\\'\"",
    seq (List.replicate 3 (one isOctal)),
    seq (oneOf "x" :: List.replicate 2 (one isHex)),
    seq (oneOf "u" :: List.replicate 4 (one isHex)),
    seq (oneOf "U" :: List.replicate 8 (one isHex))]

/-- One character between single quotes. -/
def rune : Pattern :=
  seq [oneOf "'", longest [one fun c => c != '\'' && c != '\\', seq [oneOf "\\", runeEscape]],
    oneOf "'"]

/-- How many hexadecimal digits have to follow the letter of an escape inside a text. -/
def escapeDigits : Char → Nat
  | 'x' => 2
  | 'u' => 4
  | 'U' => 8
  | _ => 0

/-- Read up to the closing double quote. What was read so far is held in reverse. A line break has
to be escaped. -/
def interpretedTextFrom (read : List Char) : List Char → Option (List Char × List Char)
  | [] => none
  | '"' :: rest => some (('"' :: read).reverse, rest)
  | '\\' :: c :: rest =>
    if (seq (List.replicate (escapeDigits c) (one isHex)) rest).isSome then
      interpretedTextFrom (c :: '\\' :: read) rest
    else none
  | c :: rest => if c = '\n' then none else interpretedTextFrom (c :: read) rest

/-- A text between double quotes, and what follows it. -/
def interpretedText : List Char → Option (List Char × List Char)
  | '"' :: rest => interpretedTextFrom ['"'] rest
  | _ => none

/-- The mark around a raw text. -/
def rawMark : Char := '`'

/-- A text between raw marks, and what follows it. -/
def rawText : List Char → Option (List Char × List Char)
  | c :: rest =>
    if c = rawMark then
      match rest.dropWhile (· != rawMark) with
      | [] => none
      | _ :: after => some (rawMark :: rest.takeWhile (· != rawMark) ++ [rawMark], after)
    else none
  | [] => none

end PackageGraph.Go.Literal
