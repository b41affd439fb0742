import PackageGraph.Glob.Basic
import PackageGraph.Sorted.Map

/-!
# Matching globs

Whether a pattern matches a whole path. Matching goes over the bytes of the path's UTF-8 text: a
token leaves some of the ends of the path to the tokens behind it, and a pattern matches if nothing
can be left at last. Ends of one path differ in their lengths, which keeps every set of them small.

## Main definitions

* `Glob.Remainders`: what may be left of a path.
* `Glob.isMatch`: does the pattern match?
-/

namespace PackageGraph.Glob

open Sorted

/-- What may be left of one path, by length. -/
abbrev Remainders := Sorted.Map Nat (List UInt8)

/-- Ends of a path as a set. -/
def Remainders.ofList (ends : List (List UInt8)) : Remainders :=
  ends.foldl (fun found bytes => found.insert bytes.length bytes) .empty

/-- The bytes of a text. -/
def bytesOf (s : String) : List UInt8 := s.toUTF8.data.toList

/-- The byte of a slash. -/
def slash : UInt8 := 0x2F

/-- All ends of a text, itself included. -/
def ends : List UInt8 → List (List UInt8)
  | [] => [[]]
  | b :: rest => (b :: rest) :: ends rest

/-- What may be left behind a beginning without slashes. -/
def endsInComponent : List UInt8 → List (List UInt8)
  | [] => [[]]
  | b :: rest => (b :: rest) :: if b = slash then [] else endsInComponent rest

/-- What may be left behind a slash, wherever it stands. -/
def endsBehindSlash (bytes : List UInt8) : List (List UInt8) :=
  (ends bytes).filterMap fun
    | [] => none
    | b :: rest => if b = slash then some rest else none

/-! ### Brackets -/

/-- The closed ranges of bytes that a range of characters stands for. A character outside ASCII
stands for its bytes; in a range, only the last byte of the low end and the first byte of the high
end are joined. -/
def byteRanges (range : Char × Char) : List (UInt8 × UInt8) :=
  let single (b : UInt8) := (b, b)
  let low := bytesOf range.1.toString
  let high := bytesOf range.2.toString
  if range.1 = range.2 then low.map single
  else
    match low.getLast?, high.head? with
    | some first, some last =>
      low.dropLast.map single ++ [(first, last)] ++ (high.drop 1).map single
    | _, _ => []

/-- Is the byte one that a bracket stands for? -/
def inClass (negated : Bool) (ranges : List (Char × Char)) (b : UInt8) : Bool :=
  ((ranges.flatMap byteRanges).any fun (low, high) => low ≤ b && b ≤ high) != negated

/-- What is left behind one byte that satisfies `p`. -/
def behindByte (p : UInt8 → Bool) : List UInt8 → List (List UInt8)
  | [] => []
  | b :: rest => if p b then [rest] else []

/-- What is left behind a known beginning. -/
def behindBytes : List UInt8 → List UInt8 → List (List UInt8)
  | [], bytes => [bytes]
  | _ :: _, [] => []
  | k :: known, b :: bytes => if k = b then behindBytes known bytes else []

/-! ### Tokens -/

mutual

/-- Is there nothing to match in a token? Only a group whose branches are all empty is so. -/
def Token.isVoid : Token → Bool
  | .oneOf branches => areVoid branches
  | _ => false

/-- Is there nothing to match in a branch? -/
def isVoidBranch : List Token → Bool
  | [] => true
  | token :: rest => token.isVoid && isVoidBranch rest

/-- Is there nothing to match in any of the branches? -/
def areVoid : List (List Token) → Bool
  | [] => true
  | branch :: rest => isVoidBranch branch && areVoid rest

end

/-- May a wildcard match this byte? -/
def Options.allows (options : Options) (b : UInt8) : Bool := !options.stopsAtSlash || b != slash

/-- What may be left behind a token that is no group. -/
def Token.behind (options : Options) (bytes : List UInt8) : Token → List (List UInt8)
  | .literal c => behindBytes (bytesOf c.toString) bytes
  | .anyByte => behindByte options.allows bytes
  | .anyText => if options.stopsAtSlash then endsInComponent bytes else ends bytes
  | .leadingDirectories => bytes :: endsBehindSlash bytes
  | .everythingBelow => (behindByte (· = slash) bytes).flatMap ends
  | .innerDirectories =>
    (behindByte (· = slash) bytes).flatMap fun rest => rest :: endsBehindSlash rest
  | .byteIn negated ranges => behindByte (inClass negated ranges) bytes
  | .oneOf _ => []

mutual

/-- What may be left behind a token. In a group, empty branches do not count, and a group that has
no others matches the empty text. -/
def behindToken (options : Options) (found : Remainders) : Token → Remainders
  | .oneOf branches => if areVoid branches then found else behindAny options found branches
  | token => .ofList (found.values.flatMap fun bytes => token.behind options bytes)

/-- What may be left behind one token after another. -/
def behindAll (options : Options) (found : Remainders) : List Token → Remainders
  | [] => found
  | token :: rest => behindAll options (behindToken options found token) rest

/-- What may be left behind one of some branches. -/
def behindAny (options : Options) (found : Remainders) : List (List Token) → Remainders
  | [] => .empty
  | branch :: rest =>
    let others := behindAny options found rest
    if isVoidBranch branch then others
    else .ofList ((behindAll options found branch).values ++ others.values)

end

/-- Does the pattern match the whole of a path? A double star alone matches every path. -/
def isMatch (glob : Glob) (options : Options) (path : String) : Bool :=
  match glob.tokens with
  | [.leadingDirectories] => true
  | tokens => (behindAll options (.ofList [bytesOf path]) tokens).contains 0

end PackageGraph.Glob
