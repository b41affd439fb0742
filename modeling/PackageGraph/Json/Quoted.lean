/-!
# Quoted texts in JSON

A text stands between double quotes. Written texts escape the quote, the backslash and control
characters; read texts may escape any UTF-16 unit, and two units of a surrogate pair make one
character.

## Main definitions

* `encode`: a text as it is written between its quotes.
* `decode`: reads up to the closing quote and says what follows it.
-/

namespace PackageGraph.Json.Quoted

/-! ### Hexadecimal digits -/

/-- The digit for a number below 16, in lower case. -/
def hexDigit (n : Nat) : Char :=
  if n < 10 then Char.ofNat ('0'.toNat + n) else Char.ofNat ('a'.toNat + n - 10)

/-- The number of a digit, in either case. -/
def hexValue? (c : Char) : Option Nat :=
  if '0' ≤ c ∧ c ≤ '9' then some (c.toNat - '0'.toNat)
  else if 'a' ≤ c ∧ c ≤ 'f' then some (c.toNat - 'a'.toNat + 10)
  else if 'A' ≤ c ∧ c ≤ 'F' then some (c.toNat - 'A'.toNat + 10)
  else none

/-- The unit that four digits stand for. -/
def unit? (a b c d : Char) : Option Nat := do
  let a ← hexValue? a
  let b ← hexValue? b
  let c ← hexValue? c
  let d ← hexValue? d
  return ((a * 16 + b) * 16 + c) * 16 + d

/-! ### Writing -/

/-- One character of a written text. -/
def escape (c : Char) : List Char :=
  match c with
  | '"' => ['\\', '"']
  | '\\' => ['\\', '\\']
  | '\x08' => ['\\', 'b']
  | '\t' => ['\\', 't']
  | '\n' => ['\\', 'n']
  | '\x0c' => ['\\', 'f']
  | '\r' => ['\\', 'r']
  | c =>
    if c.toNat < 0x20 then
      ['\\', 'u', '0', '0', hexDigit (c.toNat / 16), hexDigit (c.toNat % 16)]
    else [c]

/-- A text as it is written between its quotes. -/
def encode (cs : List Char) : List Char := cs.flatMap escape

/-! ### Reading -/

/-- One element of a read text. -/
inductive Element where
  /-- A character, raw or by a short escape. -/
  | character (c : Char)
  /-- A UTF-16 unit, by its number. -/
  | unit (n : Nat)
deriving DecidableEq, Inhabited

/-- The character of a short escape. -/
def shortEscape? : Char → Option Char
  | '"' => some '"'
  | '\\' => some '\\'
  | '/' => some '/'
  | 'b' => some '\x08'
  | 'f' => some '\x0c'
  | 'n' => some '\n'
  | 'r' => some '\r'
  | 't' => some '\t'
  | _ => none

/-- The elements up to the closing quote, with what follows it. Control characters have to be
escaped. -/
def elements : List Char → Option (List Element × List Char)
  | [] => none
  | '"' :: rest => some ([], rest)
  | '\\' :: 'u' :: a :: b :: c :: d :: rest => do
    let n ← unit? a b c d
    let (found, rest) ← elements rest
    return (.unit n :: found, rest)
  | '\\' :: e :: rest => do
    let c ← shortEscape? e
    let (found, rest) ← elements rest
    return (.character c :: found, rest)
  | c :: rest => do
    if c = '\\' ∨ c.toNat < 0x20 then none
    let (found, rest) ← elements rest
    return (.character c :: found, rest)

/-- Is the unit the first half of a surrogate pair? -/
def isLeading (n : Nat) : Bool := 0xD800 ≤ n && n < 0xDC00

/-- Is the unit the second half of a surrogate pair? -/
def isTrailing (n : Nat) : Bool := 0xDC00 ≤ n && n < 0xE000

/-- The characters of a read text, or `none` if half of a surrogate pair stands alone. -/
def assemble : List Element → Option (List Char)
  | [] => some []
  | .character c :: rest => (assemble rest).map (c :: ·)
  | .unit n :: .unit m :: rest =>
    if isLeading n then
      if isTrailing m then
        (assemble rest).map (Char.ofNat (0x10000 + (n - 0xD800) * 0x400 + (m - 0xDC00)) :: ·)
      else none
    else if isTrailing n then none
    else (assemble (.unit m :: rest)).map (Char.ofNat n :: ·)
  | .unit n :: rest =>
    if isLeading n || isTrailing n then none else (assemble rest).map (Char.ofNat n :: ·)

/-- The characters up to the closing quote, and what follows it. -/
def decode (cs : List Char) : Option (Option (List Char) × List Char) :=
  (elements cs).map fun (found, rest) => (assemble found, rest)

@[simp] theorem encode_nil : encode [] = [] := rfl

@[simp] theorem encode_cons (c : Char) (cs : List Char) :
    encode (c :: cs) = escape c ++ encode cs := rfl

end PackageGraph.Json.Quoted
