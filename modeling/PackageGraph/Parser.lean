/-!
# Reading lists of symbols

A `Parser` reads a beginning of a list of symbols and says what is left, or fails. Alternatives go
back to where they started, and every repetition ends because it is bounded by the number of symbols
that are left.

## Main definitions

* `Parser.satisfy`, `Parser.sees`: the next symbol, read or only looked at.
* `Parser.many`, `Parser.chain`: repetitions.
* `Parser.readAll?`: reads a whole list.
-/

namespace PackageGraph

/-- Reads symbols from the front of a list. -/
abbrev Parser (σ : Type) := StateT (List σ) Option

namespace Parser

variable {σ α : Type}

/-- The next symbol, without reading it. -/
def peek : Parser σ σ := do
  match ← get with
  | symbol :: _ => return symbol
  | [] => failure

/-- Does the next symbol satisfy `p`? At the end there is none that does. -/
def sees (p : σ → Bool) : Parser σ Bool := do
  match ← get with
  | symbol :: _ => return p symbol
  | [] => return false

/-- Read a symbol that satisfies `p`. -/
def satisfy (p : σ → Bool) : Parser σ σ := do
  match ← get with
  | symbol :: rest =>
    if p symbol then
      set rest
      return symbol
    else failure
  | [] => failure

/-- Read all symbols up to the first one that does not satisfy `p`. -/
def takeWhile (p : σ → Bool) : Parser σ (List σ) := do
  let symbols ← get
  set (symbols.dropWhile p)
  return symbols.takeWhile p

/-- Is nothing left? -/
def atEnd : Parser σ Bool := return (← get).isEmpty

/-- Read `p` as often as it succeeds, but not more often than there are symbols on the clock. -/
def manyWithin (p : Parser σ α) : (clock : List σ) → Parser σ (List α)
  | [] => return []
  | _ :: clock =>
    (do
      let first ← p
      let rest ← manyWithin p clock
      return first :: rest) <|>
    return []

/-- Read `p` as often as it succeeds. It has to read a symbol each time, so that the symbols that
are left are clock enough. -/
def many (p : Parser σ α) : Parser σ (List α) := do manyWithin p (← get)

/-- Continue what was read by `step` until that fails, but not more often than there are symbols on
the clock. -/
def chainWithin (step : α → Parser σ α) : (clock : List σ) → α → Parser σ α
  | [], a => return a
  | _ :: clock, a => (do chainWithin step clock (← step a)) <|> return a

/-- Continue what was read by `step` until that fails. Each step has to read a symbol. -/
def chain (step : α → Parser σ α) (a : α) : Parser σ α := do
  chainWithin step (← get) a

/-- What is read from a whole list, or `none` if that fails or leaves symbols over. -/
def readAll? (p : Parser σ α) (symbols : List σ) : Option α :=
  match p symbols with
  | some (a, []) => some a
  | _ => none

theorem readAll?_eq_some {p : Parser σ α} {symbols : List σ} {a : α} :
    readAll? p symbols = some a ↔ p symbols = some (a, []) := by
  cases h : p symbols with
  | none => simp [readAll?, h]
  | some found =>
    obtain ⟨b, rest⟩ := found
    cases rest <;> simp [readAll?, h]

end Parser

end PackageGraph
