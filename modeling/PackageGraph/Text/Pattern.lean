/-!
# Patterns

A `Pattern` measures the part of a text that it matches at the beginning. Patterns are put together
from single characters, so that each kind of literal can be written down as its language defines it.
Every pattern takes as much as it can.

## Main definitions

* `one`, `seq`, `optional`, `longest`: ways to make patterns.
* `digits`: one or more digits, with single underscores between them.
-/

namespace PackageGraph.Text

/-- The length of the match at the beginning of a text, if there is one. -/
abbrev Pattern := List Char → Option Nat

namespace Pattern

/-- One character of a class. -/
def one (p : Char → Bool) : Pattern
  | [] => none
  | c :: _ => if p c then some 1 else none

/-- One of the given characters. -/
def oneOf (s : String) : Pattern := one s.toList.contains

/-- One pattern after another. -/
def seq : List Pattern → Pattern
  | [], _ => some 0
  | p :: ps, cs => (p cs).bind fun n => (seq ps (cs.drop n)).map (n + ·)

/-- A pattern, or nothing. -/
def optional (p : Pattern) : Pattern := fun cs => some ((p cs).getD 0)

/-- The longest match of several patterns. -/
def longest (ps : List Pattern) : Pattern := fun cs => (ps.filterMap fun p => p cs).max?

/-! ### Digits -/

/-- The digits at the beginning of a text, each with an underscore before it or not. -/
def moreDigits (p : Char → Bool) : List Char → Nat
  | [] => 0
  | '_' :: c :: rest => if p c then 2 + moreDigits p rest else 0
  | c :: rest => if p c then 1 + moreDigits p rest else 0

/-- One or more digits, with single underscores between them. -/
def digits (p : Char → Bool) : Pattern
  | [] => none
  | c :: rest => if p c then some (1 + moreDigits p rest) else none

def isBinary (c : Char) : Bool := c = '0' || c = '1'

def isOctal (c : Char) : Bool := '0' ≤ c && c ≤ '7'

def isDecimal (c : Char) : Bool := '0' ≤ c && c ≤ '9'

def isHex (c : Char) : Bool :=
  isDecimal c || ('a' ≤ c && c ≤ 'f') || ('A' ≤ c && c ≤ 'F')

@[simp] theorem seq_nil (cs : List Char) : seq [] cs = some 0 := rfl

end Pattern

end PackageGraph.Text
