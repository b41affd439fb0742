import PackageGraph.Json.Quoted
import PackageGraph.Json.Value
import PackageGraph.Text.Basic

/-!
# Writing JSON

The pretty form of a JSON value: every item and every member on a line of its own, indented by two
spaces for each level; an empty array or object on one line.
-/

namespace PackageGraph.Json

/-- A line break, and the indentation of the line after it. -/
def newline (level : Nat) : List Char := '\n' :: List.replicate (2 * level) ' '

/-- A text between its quotes. A text without characters is written empty. -/
def printCharacters (characters : Characters) : List Char :=
  '"' :: Quoted.encode (characters.getD "").toList ++ ['"']

/-- What encloses lines of a deeper level, or nothing if there are none. -/
def enclose (opening closing : Char) (level : Nat) (lines : List Char) : List Char :=
  if lines.isEmpty then [opening, closing] else opening :: lines ++ newline level ++ [closing]

/-- The comma between a line and those after it. -/
def comma {α : Type} (rest : List α) : List Char := if rest.isEmpty then [] else [',']

mutual

/-- The pretty form of a value that begins on a line of the given level. -/
def print (level : Nat) : Value → List Char
  | .null => "null".toList
  | .bool true => "true".toList
  | .bool false => "false".toList
  | .natural n => Text.decimal n
  | .otherNumber => ['0', '.', '0']
  | .text characters => printCharacters characters
  | .array items => enclose '[' ']' level (printItems (level + 1) items)
  | .object members => enclose '{' '}' level (printMembers (level + 1) members)

/-- Items, each on a line of the given level. -/
def printItems (level : Nat) : List Value → List Char
  | [] => []
  | item :: items => newline level ++ print level item ++ comma items ++ printItems level items

/-- Members, each on a line of the given level. -/
def printMembers (level : Nat) : List (Characters × Value) → List Char
  | [] => []
  | (key, value) :: members =>
    newline level ++ printCharacters key ++ ':' :: ' ' :: print level value ++ comma members ++
      printMembers level members

end

/-- The pretty form of a value. -/
def Value.pretty (value : Value) : List Char := print 0 value

end PackageGraph.Json
