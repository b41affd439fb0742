import PackageGraph.Text.Pattern
import PackageGraph.Toml.Text
import PackageGraph.Toml.Value

/-!
# Scalars in TOML

Truth values, numbers, and points in time. A number has to fit its type even where nobody looks at
it: an integer into 128 bits, a fraction into a double.

## Main definitions

* `scalar`: a value that is no text and has no parts.
-/

namespace PackageGraph.Toml

open PackageGraph.Parser Text Text.Pattern

/-- Read what a pattern matches. -/
def matching (p : Pattern) : Read (List Char) := do
  let cs ← get
  match p cs with
  | some n =>
    set (cs.drop n)
    return cs.take n
  | none => failure

/-! ### Numbers -/

def sign : Pattern := optional (oneOf "+-")

/-- A number without leading zeros. -/
def decimal : Pattern :=
  longest [oneOf "0", seq [oneOf "123456789", fun cs => some (moreDigits isDecimal cs)]]

/-- An integer with the letter of its base. -/
def based (letter : String) (p : Char → Bool) : Pattern := seq [oneOf "0", oneOf letter, digits p]

/-- The number that digits stand for; underscores between them do not count. -/
def digitsValue (base : Nat) (cs : List Char) : Nat :=
  cs.foldl (fun n c => match hexDigit? c with | some d => n * base + d | none => n) 0

/-- The part of a number behind its sign, with the sign as a factor. -/
def splitSign : List Char → Int × List Char
  | '-' :: cs => (-1, cs)
  | '+' :: cs => (1, cs)
  | cs => (1, cs)

/-- The value of a number in decimal digits, with a sign or without. -/
def decimalValue (cs : List Char) : Int :=
  let (factor, digits) := splitSign cs
  factor * digitsValue 10 digits

/-- The value of an integer in any base. -/
def integerValue (cs : List Char) : Int :=
  match cs with
  | '0' :: 'x' :: digits => digitsValue 16 digits
  | '0' :: 'o' :: digits => digitsValue 8 digits
  | '0' :: 'b' :: digits => digitsValue 2 digits
  | cs => decimalValue cs

/-- Does an integer fit into 128 bits, with a sign or without? -/
def fitsInteger : Int → Bool
  | .ofNat n => n < Nat.pow 2 128
  | .negSucc n => n < Nat.pow 2 127

/-- An integer that fits. -/
def integer : Read Value := do
  let cs ← matching <| longest
    [seq [sign, decimal], based "x" isHex, based "o" isOctal, based "b" isBinary]
  let n := integerValue cs
  if fitsInteger n then return .integer n else failure

def exponent : Pattern := seq [oneOf "eE", sign, digits isDecimal]

/-- Digits behind a point, with an exponent or not, or an exponent alone. -/
def fractionEnd : Pattern :=
  longest [seq [oneOf ".", digits isDecimal, optional exponent], exponent]

/-- Does the number round to a double that is not infinite? The number is `digits` times a power of
ten; the least one that rounds to infinity lies half a step above the greatest double. -/
def fitsDouble (digits : Nat) (power : Int) : Bool :=
  let limit := Nat.pow 2 1024 - Nat.pow 2 970
  if digits = 0 then true
  else
    match power with
    | .ofNat zeros => zeros ≤ 310 && digits * Nat.pow 10 zeros < limit
    | .negSucc n =>
      let places := n + 1
      -- Below the limit if the number has no more than 308 digits before its point.
      (Nat.toDigits 10 digits).length ≤ 308 + places || digits < limit * Nat.pow 10 places

/-- Is a fraction in the range of doubles? -/
def isInRange (cs : List Char) : Bool :=
  let unsigned := (splitSign cs).2
  let isExponent (c : Char) : Bool := c = 'e' || c = 'E'
  let whole := unsigned.takeWhile fun c => c != '.' && !isExponent c
  let behindPoint := (unsigned.takeWhile (!isExponent ·)).drop (whole.length + 1)
  let power := decimalValue ((unsigned.dropWhile (!isExponent ·)).drop 1)
  let places := (behindPoint.filter isDecimal).length
  fitsDouble (digitsValue 10 (whole ++ behindPoint)) (power - places)

/-- A number with a fraction or an exponent. -/
def fraction : Read Value := do
  let cs ← matching (seq [sign, decimal, fractionEnd])
  if isInRange cs then return .fraction else failure

/-- Infinity, or no number at all. -/
def specialNumber : Read Value := do
  discard (matching sign)
  characters "inf".toList <|> characters "nan".toList
  return .fraction

/-! ### Points in time -/

/-- A number of so many digits, within bounds. -/
def bounded (length low high : Nat) : Read Nat := do
  let n := digitsValue 10 (← matching (seq (List.replicate length (one isDecimal))))
  if low ≤ n ∧ n ≤ high then return n else failure

/-- How many days a month has. -/
def daysIn (year month : Nat) : Nat :=
  if month = 2 then
    if year % 4 = 0 ∧ (year % 100 ≠ 0 ∨ year % 400 = 0) then 29 else 28
  else if [4, 6, 9, 11].contains month then 30
  else 31

def date : Read Unit := do
  let year ← bounded 4 0 9999
  character '-'
  let month ← bounded 2 1 12
  character '-'
  discard (bounded 2 1 (daysIn year month))

/-- A time of day. Its seconds may be left out. -/
def timeOfDay : Read Unit := do
  discard (bounded 2 0 23)
  character ':'
  discard (bounded 2 0 59)
  discard (optional do
    character ':'
    discard (bounded 2 0 60)
    discard (optional do
      character '.'
      let digits ← takeWhile isDecimal
      if digits.isEmpty then failure))

/-- The distance from universal time. -/
def offset : Read Unit :=
  discard (satisfy fun c => c = 'Z' || c = 'z') <|>
  (do
    discard (satisfy fun c => c = '+' || c = '-')
    discard (bounded 2 0 23)
    character ':'
    discard (bounded 2 0 59))

/-- A date, a time of day, or both. -/
def pointInTime : Read Value :=
  (do
    date
    discard (satisfy fun c => c = 'T' || c = 't' || c = ' ')
    timeOfDay
    discard (optional offset)
    return .time) <|>
  (do
    date
    return .time) <|>
  (do
    timeOfDay
    return .time)

/-! ### Scalars -/

def truth : Read Value :=
  (do
    characters "true".toList
    return .boolean true) <|>
  (do
    characters "false".toList
    return .boolean false)

/-- Read `p` if a value may end behind it. -/
def ended (p : Read Value) : Read Value := do
  let value ← p
  let next ← get
  match next with
  | [] => return value
  | c :: _ => if " \t\r\n#,]\x7d".toList.contains c then return value else failure

/-- A value that is no text and has no parts. -/
def scalar : Read Value :=
  ended truth <|> ended pointInTime <|> ended fraction <|> ended integer <|> ended specialNumber

end PackageGraph.Toml
