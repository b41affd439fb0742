import PackageGraph.Dot

/-!
# Drawings read character by character

The drawing language has one rule for strings: a quote opens one, inside it a backslash and the
character after it are a pair, and the first quote that is in no pair closes it. All other
characters are code. Read by this rule (`lex`), a drawing that is put together from pieces is these
pieces again, as long as no code has a quote (`lex_flatMap_text`), and what a string stands for is
the text that was quoted (`decode_escape`).

A backslash in front of a character that structures a label is left as it is, since the two are the
escape of a label. They are a pair to the reader as well, so what comes after such a backslash is
read as it would be on its own: neither a quote nor a backslash structures a label
(`lexFrom_paired_escape`, `decode_backslash_escape`). Both inductions stand on that.
-/

namespace PackageGraph.Dot

/-! ### Reading -/

/-- What is read: a character of code, or a string as it stands between its quotes. -/
inductive Token where
  | code (c : Char)
  | string (cs : List Char)
deriving DecidableEq

/-- Where a reader stands. Inside a string it holds what it has read of it, last character first. -/
inductive Mode where
  | outside
  | inside (read : List Char)
  /-- Between the two characters of a pair. -/
  | paired (read : List Char)

/-- The tokens of a text, or `none` if it ends inside a string. -/
def lexFrom : Mode → List Char → Option (List Token)
  | .outside, [] => some []
  | .inside _, [] => none
  | .paired _, [] => none
  | .outside, c :: cs =>
    if c = '"' then lexFrom (.inside []) cs else (lexFrom .outside cs).map (.code c :: ·)
  | .inside read, c :: cs =>
    if c = '"' then (lexFrom .outside cs).map (.string read.reverse :: ·)
    else if c = '\\' then lexFrom (.paired (c :: read)) cs
    else lexFrom (.inside (c :: read)) cs
  | .paired read, c :: cs => lexFrom (.inside (c :: read)) cs

/-- The tokens of a drawing. -/
def lex (cs : List Char) : Option (List Token) := lexFrom .outside cs

/-- The text that a string stands for. A quote and a backslash are written with a backslash in
front; all other pairs stand for themselves. -/
def decode : List Char → List Char
  | [] => []
  | [c] => [c]
  | c :: next :: cs =>
    if c = '\\' then
      if next = '"' ∨ next = '\\' then next :: decode cs else c :: next :: decode cs
    else c :: decode (next :: cs)

/-- A token with its string decoded. -/
def Token.decoded : Token → Token
  | .code c => .code c
  | .string cs => .string (decode cs)

@[simp] theorem decoded_code (c : Char) : (Token.code c).decoded = .code c := rfl

@[simp] theorem decoded_string (cs : List Char) :
    (Token.string cs).decoded = .string (decode cs) := rfl

/-! ### Escaped texts -/

theorem isStructural_ne {c : Char} (h : isStructural c = true) : c ≠ '"' ∧ c ≠ '\\' := by
  constructor <;> rintro rfl <;> exact absurd h (by decide)

/-- A quote has a backslash put in front. -/
theorem escape_quotation (cs : List Char) : escape ('"' :: cs) = '\\' :: '"' :: escape cs := rfl

theorem escape_backslash {cs : List Char} (h : beginsStructural cs = false) :
    escape ('\\' :: cs) = '\\' :: '\\' :: escape cs := by
  simp [escape, h]

/-- A backslash that looks like the escape of a field stays alone. -/
theorem escape_backslash_structural {cs : List Char} (h : beginsStructural cs = true) :
    escape ('\\' :: cs) = '\\' :: escape cs := by
  simp [escape, h]

theorem escape_plain {c : Char} (h : c ≠ '"' ∧ c ≠ '\\') (cs : List Char) :
    escape (c :: cs) = c :: escape cs := by
  simp [escape, h]

/-- What begins with a character that structures labels begins with no quote and no backslash. -/
theorem exists_cons_of_beginsStructural {cs : List Char} (h : beginsStructural cs = true) :
    ∃ c rest, cs = c :: rest ∧ c ≠ '"' ∧ c ≠ '\\' := by
  cases cs with
  | nil => cases h
  | cons c rest => exact ⟨c, rest, rfl, isStructural_ne h⟩

/-- A case split of an escaped text by what is written for its first character. -/
theorem escape_induction {P : List Char → Prop} (nil : P [])
    (quotation : ∀ cs, P cs → P ('"' :: cs))
    (backslash : ∀ cs, beginsStructural cs = false → P cs → P ('\\' :: cs))
    (structural : ∀ cs, beginsStructural cs = true → P cs → P ('\\' :: cs))
    (plain : ∀ c cs, c ≠ '"' ∧ c ≠ '\\' → P cs → P (c :: cs)) (cs : List Char) : P cs := by
  induction cs with
  | nil => exact nil
  | cons c cs ih =>
    by_cases hquotation : c = '"'
    · exact hquotation ▸ quotation cs ih
    · by_cases hbackslash : c = '\\'
      · cases h : beginsStructural cs with
        | false => exact hbackslash ▸ backslash cs h ih
        | true => exact hbackslash ▸ structural cs h ih
      · exact plain c cs ⟨hquotation, hbackslash⟩ ih

@[simp] theorem lexFrom_outside_quotation (cs : List Char) :
    lexFrom .outside ('"' :: cs) = lexFrom (.inside []) cs := rfl

@[simp] theorem lexFrom_inside_quotation (read cs : List Char) :
    lexFrom (.inside read) ('"' :: cs) =
      (lexFrom .outside cs).map (.string read.reverse :: ·) := rfl

@[simp] theorem lexFrom_inside_backslash (read cs : List Char) :
    lexFrom (.inside read) ('\\' :: cs) = lexFrom (.paired ('\\' :: read)) cs := rfl

@[simp] theorem lexFrom_paired (read : List Char) (c : Char) (cs : List Char) :
    lexFrom (.paired read) (c :: cs) = lexFrom (.inside (c :: read)) cs := rfl

theorem lexFrom_inside_plain {c : Char} (h : c ≠ '"' ∧ c ≠ '\\') (read cs : List Char) :
    lexFrom (.inside read) (c :: cs) = lexFrom (.inside (c :: read)) cs := by
  simp [lexFrom, h]

/-- It makes no difference to an escaped text whether its first character, one that structures a
label, ends a pair. -/
theorem lexFrom_paired_escape {cs : List Char} (h : beginsStructural cs = true)
    (read rest : List Char) :
    lexFrom (.paired read) (escape cs ++ rest) = lexFrom (.inside read) (escape cs ++ rest) := by
  obtain ⟨c, cs, rfl, hplain⟩ := exists_cons_of_beginsStructural h
  rw [escape_plain hplain, List.cons_append, lexFrom_paired, lexFrom_inside_plain hplain]

/-- **An escaped text closes no string**, so that all of it is read as one. -/
theorem lexFrom_inside_escape (cs read rest : List Char) :
    lexFrom (.inside read) (escape cs ++ '"' :: rest) =
      (lexFrom .outside rest).map (.string (read.reverse ++ escape cs) :: ·) := by
  -- what has been read of the string grows from character to character
  induction cs using escape_induction generalizing read with
  | nil => simp
  | quotation cs ih => simp [escape_quotation, ih]
  | backslash cs h ih => simp [escape_backslash h, ih]
  | structural cs h ih =>
    -- the pair takes in the next character, which would have been read the same way
    simp [escape_backslash_structural h, lexFrom_paired_escape h, ih]
  | plain c cs h ih => simp [escape_plain h, lexFrom_inside_plain h, ih]

/-- A quoted text is read as one string. -/
theorem lexFrom_quote (cs rest : List Char) :
    lexFrom .outside (quote cs ++ rest) =
      (lexFrom .outside rest).map (.string (escape cs) :: ·) := by
  simpa [quote] using lexFrom_inside_escape cs [] rest

/-! ### Decoded texts -/

@[simp] theorem decode_nil : decode [] = [] := by simp [decode]

theorem decode_plain {c : Char} (h : c ≠ '\\') (cs : List Char) :
    decode (c :: cs) = c :: decode cs := by
  cases cs <;> simp [decode, h]

/-- A backslash that stands alone in an escaped text stands for itself. -/
theorem decode_backslash_escape {cs : List Char} (h : beginsStructural cs = true) :
    decode ('\\' :: escape cs) = '\\' :: decode (escape cs) := by
  obtain ⟨c, cs, rfl, hplain⟩ := exists_cons_of_beginsStructural h
  rw [escape_plain hplain, decode_plain hplain.2]
  simp [decode, hplain]

/-- **A text is what its escaped text stands for.** -/
@[simp] theorem decode_escape (cs : List Char) : decode (escape cs) = cs := by
  induction cs using escape_induction with
  | nil => simp
  | quotation cs ih => simp [escape_quotation, decode, ih]
  | backslash cs h ih => simp [escape_backslash h, decode, ih]
  | structural cs h ih => rw [escape_backslash_structural h, decode_backslash_escape h, ih]
  | plain c cs h ih => rw [escape_plain h, decode_plain h.2, ih]

/-! ### Pieces -/

/-- The tokens that a piece is meant to be. -/
def Piece.tokens : Piece → List Token
  | .code cs => cs.map .code
  | .quoted cs => [.string cs]

@[simp] theorem tokens_quoted (s : String) : (quoted s).tokens = [.string s.toList] := rfl

/-- The code of the piece has no quote. -/
def Piece.Unquoted : Piece → Prop
  | .code cs => '"' ∉ cs
  | .quoted _ => True

/-- Code without quotes is read character by character. -/
theorem lexFrom_outside_append {cs : List Char} (h : '"' ∉ cs) (rest : List Char) :
    lexFrom .outside (cs ++ rest) = (lexFrom .outside rest).map (cs.map .code ++ ·) := by
  induction cs with
  | nil => simp
  | cons c cs ih =>
    obtain ⟨hc, hcs⟩ := List.ne_and_not_mem_of_not_mem_cons h
    simp [lexFrom, Ne.symm hc, ih hcs, Function.comp_def]

/-- A piece is read as its tokens, whatever stands after it. -/
theorem lexFrom_text {piece : Piece} (h : piece.Unquoted) (rest : List Char) :
    ∃ tokens, tokens.map Token.decoded = piece.tokens ∧
      lexFrom .outside (piece.text ++ rest) = (lexFrom .outside rest).map (tokens ++ ·) := by
  cases piece with
  | code cs => exact ⟨cs.map .code, by simp [Piece.tokens], lexFrom_outside_append h rest⟩
  | quoted cs => exact ⟨[.string (escape cs)], by simp [Piece.tokens], lexFrom_quote cs rest⟩

/-- **Pieces are read as the tokens that they are meant to be.** -/
theorem lex_flatMap_text {pieces : List Piece} (h : ∀ piece ∈ pieces, piece.Unquoted) :
    ∃ tokens, lex (pieces.flatMap Piece.text) = some tokens ∧
      tokens.map Token.decoded = pieces.flatMap Piece.tokens := by
  induction pieces with
  | nil => exact ⟨[], rfl, rfl⟩
  | cons piece pieces ih =>
    obtain ⟨hpiece, hpieces⟩ := List.forall_mem_cons.1 h
    obtain ⟨later, hlater, hmap⟩ := ih hpieces
    obtain ⟨tokens, htokens, hlex⟩ := lexFrom_text hpiece (pieces.flatMap Piece.text)
    refine ⟨tokens ++ later, ?_, by simp [htokens, hmap]⟩
    rw [lex] at hlater ⊢
    rw [List.flatMap_cons, hlex, hlater, Option.map_some]

end PackageGraph.Dot
