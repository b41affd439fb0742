import PackageGraph.Text.Blank

/-!
# Cutting text

Cutting a known beginning off a text, and reading a text line by line. The functions work on lists
of characters; `String` is used where text is stored.
-/

namespace PackageGraph.Text

/-- The rest of a text after a known beginning, or `none` if it begins otherwise. -/
def stripPrefix? : List Char → List Char → Option (List Char)
  | [], cs => some cs
  | _ :: _, [] => none
  | p :: ps, c :: cs => if p = c then stripPrefix? ps cs else none

/-- **Cutting a beginning off undoes putting it in front**, and nothing else is cut. -/
theorem stripPrefix?_eq_some {ps cs rest : List Char} :
    stripPrefix? ps cs = some rest ↔ cs = ps ++ rest := by
  induction ps generalizing cs with
  | nil => simp [stripPrefix?]
  | cons p ps ih =>
    cases cs with
    | nil => simp [stripPrefix?]
    | cons c cs =>
      by_cases h : p = c
      · simp [stripPrefix?, h, ih]
      · simp only [stripPrefix?, h, if_false, reduceCtorEq, List.cons_append, List.cons.injEq,
          false_iff, not_and]
        exact fun e => absurd e.symm h

@[simp] theorem stripPrefix?_append (ps rest : List Char) :
    stripPrefix? ps (ps ++ rest) = some rest := stripPrefix?_eq_some.2 rfl

/-- Does the text begin this way? -/
def hasPrefix (start cs : List Char) : Bool := (stripPrefix? start cs).isSome

/-- Does the text end this way? -/
def hasSuffix (ending cs : List Char) : Bool := hasPrefix ending.reverse cs.reverse

/-- A text has a suffix if it is something followed by it. -/
theorem hasSuffix_iff {ending cs : List Char} :
    hasSuffix ending cs = true ↔ ∃ start, cs = start ++ ending := by
  rw [hasSuffix, hasPrefix, Option.isSome_iff_exists]
  simp only [stripPrefix?_eq_some]
  constructor
  · rintro ⟨rest, h⟩
    exact ⟨rest.reverse, by rw [← List.reverse_inj, h]; simp⟩
  · rintro ⟨start, rfl⟩
    exact ⟨start.reverse, List.reverse_append⟩

/-- Drop at both ends every character that satisfies `p`. -/
def trimMatches (p : Char → Bool) (cs : List Char) : List Char :=
  ((cs.dropWhile p).reverse.dropWhile p).reverse

/-- A line without the carriage return that may stand before its line feed. -/
def dropReturn (line : List Char) : List Char :=
  if line.getLast? = some '\r' then line.dropLast else line

/-- The lines of a text. Each ends with LF or CRLF, which is not part of it; what follows the last
line feed is a line of its own unless it is empty. -/
def lines (cs : List Char) : List (List Char) :=
  let parts := cs.splitOn '\n'
  parts.dropLast.map dropReturn ++ parts.getLast?.toList.filter (!·.isEmpty)

/-- Put a separator between the parts of a text. -/
def joinWith (separator : String) : List String → String
  | [] => ""
  | [s] => s
  | s :: t :: rest => s ++ separator ++ joinWith separator (t :: rest)

/-- A number in decimal digits. -/
def decimal (n : Nat) : List Char := Nat.toDigits 10 n

/-- The number that decimal digits stand for. -/
def ofDigits (digits : List Char) : Nat :=
  digits.foldl (fun n c => n * 10 + (c.toNat - '0'.toNat)) 0

end PackageGraph.Text
