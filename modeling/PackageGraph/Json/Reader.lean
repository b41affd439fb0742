import PackageGraph.Json.Quoted
import PackageGraph.Json.Value
import PackageGraph.Text.Basic

/-!
# Reading JSON

The value that a JSON text stands for. Reading goes by the grammar of JSON: one value, with blanks
around every token and nothing else beside it.

## Main definitions

* `Value.ofText?`: the value of a whole text.
* `readValue`, `readItems`, `readMembers`: the grammar, each on the characters that are left. Their
  first argument bounds the nesting and the number of items; `Value.ofText?` chooses it from the
  length of the text, so that it never runs out.
-/

namespace PackageGraph.Json

open Text

/-- The blanks of JSON. -/
def isBlank (c : Char) : Bool := c = ' ' || c = '\t' || c = '\n' || c = '\r'

/-- What follows leading blanks. -/
def skipBlank (cs : List Char) : List Char := cs.dropWhile isBlank

/-! ### Numbers -/

/-- The digits at the beginning of a text, and what follows them. -/
def spanDigits (cs : List Char) : List Char × List Char :=
  (cs.takeWhile Char.isDigit, cs.dropWhile Char.isDigit)

/-- What follows a fraction, if there is one; a point needs a digit after it. -/
def skipFraction : List Char → Option (List Char)
  | '.' :: rest =>
    match spanDigits rest with
    | ([], _) => none
    | (_, rest) => some rest
  | cs => some cs

/-- What follows an exponent, if there is one; its mark needs a digit after it. -/
def skipExponent : List Char → Option (List Char)
  | c :: rest =>
    if c = 'e' ∨ c = 'E' then
      let unsigned := match rest with
        | '+' :: rest => rest
        | '-' :: rest => rest
        | rest => rest
      match spanDigits unsigned with
      | ([], _) => none
      | (_, rest) => some rest
    else some (c :: rest)
  | [] => some []

/-- The digits before a point: a zero alone, or digits that do not begin with zero. -/
def readWhole : List Char → Option (List Char × List Char)
  | '0' :: rest => some (['0'], rest)
  | cs =>
    match spanDigits cs with
    | ([], _) => none
    | found => some found

/-- A number at the beginning of a text. -/
def readNumber : List Char → Option (Value × List Char)
  | '-' :: cs => do
    let (_, rest) ← readWhole cs
    let rest ← skipFraction rest
    let rest ← skipExponent rest
    return (.otherNumber, rest)
  | cs => do
    let (digits, whole) ← readWhole cs
    let rest ← skipFraction whole
    let rest ← skipExponent rest
    -- Only a number that ends where its digits end is a natural number.
    return (if rest.length = whole.length then .natural (ofDigits digits) else .otherNumber, rest)

/-! ### Values -/

/-- The words that stand for a value. -/
def words : List (List Char × Value) :=
  [("null".toList, .null), ("true".toList, .bool true), ("false".toList, .bool false)]

/-- A word or a number at the beginning of a text. -/
def readScalar (cs : List Char) : Option (Value × List Char) :=
  match words.findSome? fun (word, value) => (stripPrefix? word cs).map (value, ·) with
  | some found => some found
  | none => readNumber cs

/-- The text after an opening quote, and what follows it. -/
def readCharacters (cs : List Char) : Option (Characters × List Char) :=
  (Quoted.decode cs).map fun (characters, rest) => (characters.map .ofList, rest)

mutual

/-- A value at the beginning of a text. -/
def readValue : Nat → List Char → Option (Value × List Char)
  | 0, _ => none
  | fuel + 1, cs =>
    match skipBlank cs with
    | '"' :: rest => (readCharacters rest).map fun (characters, rest) => (.text characters, rest)
    | '[' :: rest =>
      match skipBlank rest with
      | ']' :: rest => some (.array [], rest)
      | rest => (readItems fuel rest).map fun (items, rest) => (.array items, rest)
    | '{' :: rest =>
      match skipBlank rest with
      | '}' :: rest => some (.object [], rest)
      | rest => (readMembers fuel rest).map fun (members, rest) => (.object members, rest)
    | cs => readScalar cs

/-- One or more items up to the end of their array. -/
def readItems : Nat → List Char → Option (List Value × List Char)
  | 0, _ => none
  | fuel + 1, cs => do
    let (item, rest) ← readValue fuel cs
    match skipBlank rest with
    | ',' :: rest =>
      let (items, rest) ← readItems fuel rest
      return (item :: items, rest)
    | ']' :: rest => return ([item], rest)
    | _ => none

/-- One or more members up to the end of their object. -/
def readMembers : Nat → List Char → Option (List (Characters × Value) × List Char)
  | 0, _ => none
  | fuel + 1, cs =>
    match skipBlank cs with
    | '"' :: rest => do
      let (key, rest) ← readCharacters rest
      match skipBlank rest with
      | ':' :: rest =>
        let (value, rest) ← readValue fuel rest
        match skipBlank rest with
        | ',' :: rest =>
          let (members, rest) ← readMembers fuel rest
          return ((key, value) :: members, rest)
        | '}' :: rest => return ([(key, value)], rest)
        | _ => none
      | _ => none
    | _ => none

end

/-- The value of a JSON text. -/
def Value.ofText? (cs : List Char) : Option Value :=
  -- Every second step consumes a character.
  match readValue (2 * cs.length + 2) cs with
  | some (value, rest) => if (skipBlank rest).isEmpty then some value else none
  | none => none

@[simp] theorem skipBlank_nil : skipBlank [] = [] := rfl

theorem skipBlank_of_not_isBlank {c : Char} (h : isBlank c = false) (cs : List Char) :
    skipBlank (c :: cs) = c :: cs := by
  simp [skipBlank, h]

end PackageGraph.Json
