/-!
# JSON values

The values that a JSON text stands for, as far as anything here looks at them: a number that is not
written with digits alone keeps no value, and a text with an unpaired surrogate keeps no characters.
Members of an object keep their order and may repeat a key.
-/

namespace PackageGraph.Json

/-- The characters of a JSON text, or `none` if they contain an unpaired surrogate. -/
abbrev Characters := Option String

/-- A JSON value. -/
inductive Value where
  | null
  | bool (b : Bool)
  /-- A number that is written with digits alone. -/
  | natural (n : Nat)
  /-- Any other number. -/
  | otherNumber
  | text (characters : Characters)
  | array (items : List Value)
  | object (members : List (Characters × Value))
deriving Inhabited

namespace Value

/-- The value of a text that has all its characters. -/
def ofString (s : String) : Value := .text (some s)

/-- The characters of a text value. -/
def string? : Value → Option String
  | .text characters => characters
  | _ => none

def bool? : Value → Option Bool
  | .bool b => some b
  | _ => none

/-- The largest number that fits into 64 bits. -/
def greatestNatural : Nat := 18446744073709551615

/-- A number that is written with digits alone and fits into 64 bits. -/
def natural? : Value → Option Nat
  | .natural n => if n ≤ greatestNatural then some n else none
  | _ => none

/-- The items of an array, each read by `read`. -/
def list? {α : Type} (read : Value → Option α) : Value → Option (List α)
  | .array items => items.mapM read
  | _ => none

@[simp] theorem string?_ofString (s : String) : (ofString s).string? = some s := rfl

end Value

end PackageGraph.Json
