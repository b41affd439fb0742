import Mathlib.Data.List.Basic
import PackageGraph.Json.Reader
import PackageGraph.Proofs.Json.Quoted
import PackageGraph.Proofs.Text.Decimal

/-!
# Steps of reading JSON

One lemma for each thing that a reader can meet at the beginning of a text, so that nothing else has
to look at how the readers are written. Each says what is read if the parts are read, and leaves
open what follows (`readItems_cons`, `readMembers_cons`, `readValue_array`, …). The readers are
opened by the equation of one step (`readValue_succ`, `readItems_succ`, `readMembers_succ`).

Numbers are the only values without an end of their own. They end where a character follows that no
number goes on with, and this is all that is asked of what follows a value (`Delimited`).
-/

namespace PackageGraph.Json

open Text

/-! ### One step -/

/-- What a value may be, by the first character that is no blank. -/
theorem readValue_succ (fuel : Nat) (cs : List Char) :
    readValue (fuel + 1) cs =
      match skipBlank cs with
      | '"' :: rest => (readCharacters rest).map fun (characters, rest) => (.text characters, rest)
      | '[' :: rest =>
        match skipBlank rest with
        | ']' :: rest => some (.array [], rest)
        | rest => (readItems fuel rest).map fun (items, rest) => (.array items, rest)
      | '{' :: rest =>
        match skipBlank rest with
        | '}' :: rest => some (.object [], rest)
        | rest => (readMembers fuel rest).map fun (members, rest) => (.object members, rest)
      | cs => readScalar cs := rfl

/-- Behind an item there is a comma and more items, or the end of the array. -/
theorem readItems_succ (fuel : Nat) (cs : List Char) :
    readItems (fuel + 1) cs = (do
      let (item, rest) ← readValue fuel cs
      match skipBlank rest with
      | ',' :: rest =>
        let (items, rest) ← readItems fuel rest
        return (item :: items, rest)
      | ']' :: rest => return ([item], rest)
      | _ => none) := rfl

/-- A member is a key, a colon and a value; behind it there is a comma and more members, or the end
of the object. -/
theorem readMembers_succ (fuel : Nat) (cs : List Char) :
    readMembers (fuel + 1) cs =
      match skipBlank cs with
      | '"' :: rest => do
        let (key, rest) ← readCharacters rest
        match skipBlank rest with
        | ':' :: rest =>
          let (value, rest) ← readValue fuel rest
          match skipBlank rest with
          | ',' :: rest =>
            let (members, rest) ← readMembers fuel rest
            return ((key, value) :: members, rest)
          | '}' :: rest => return ([(key, value)], rest)
          | _ => none
        | _ => none
      | _ => none := rfl

/-! ### Blanks -/

theorem skipBlank_skipBlank (cs : List Char) : skipBlank (skipBlank cs) = skipBlank cs := by
  induction cs with
  | nil => rfl
  | cons c cs ih =>
    by_cases h : isBlank c = true
    · rw [skipBlank, skipBlank, List.dropWhile_cons_of_pos h]
      exact ih
    · rw [skipBlank_of_not_isBlank (by simpa using h), skipBlank_of_not_isBlank (by simpa using h)]

/-- Blanks in front of a text are skipped with its own. -/
theorem skipBlank_append {blanks : List Char} (h : ∀ c ∈ blanks, isBlank c = true)
    (cs : List Char) : skipBlank (blanks ++ cs) = skipBlank cs :=
  List.dropWhile_append_of_pos h

/-- Readers look past leading blanks. -/
theorem readValue_congr {cs cs' : List Char} (h : skipBlank cs = skipBlank cs') (fuel : Nat) :
    readValue fuel cs = readValue fuel cs' := by
  cases fuel with
  | zero => rfl
  | succ fuel => rw [readValue_succ, readValue_succ, h]

theorem readItems_congr {cs cs' : List Char} (h : skipBlank cs = skipBlank cs') (fuel : Nat) :
    readItems fuel cs = readItems fuel cs' := by
  cases fuel with
  | zero => rfl
  | succ fuel => rw [readItems_succ, readItems_succ, readValue_congr h]

theorem readMembers_congr {cs cs' : List Char} (h : skipBlank cs = skipBlank cs') (fuel : Nat) :
    readMembers fuel cs = readMembers fuel cs' := by
  cases fuel with
  | zero => rfl
  | succ fuel => rw [readMembers_succ, readMembers_succ, h]

/-! ### What follows a value -/

/-- Nothing follows, or a character that no number goes on with. -/
def Delimited (rest : List Char) : Prop :=
  ∀ c ∈ rest.head?, isBlank c = true ∨ c = ',' ∨ c = ']' ∨ c = '}'

/-- A blank or a mark delimits a value. -/
theorem delimited_cons {c : Char} (h : isBlank c = true ∨ c = ',' ∨ c = ']' ∨ c = '}')
    (cs : List Char) : Delimited (c :: cs) := by
  intro c' hc'
  rw [List.head?_cons, Option.mem_def, Option.some.injEq] at hc'
  rwa [← hc']

/-- What delimits a value is no part of a number. -/
theorem Delimited.head {c : Char} {cs : List Char} (h : Delimited (c :: cs)) :
    c.isDigit = false ∧ c ≠ '.' ∧ c ≠ 'e' ∧ c ≠ 'E' := by
  have hc := h c (by simp)
  simp only [isBlank, Bool.or_eq_true, decide_eq_true_eq] at hc
  rcases hc with ((((rfl | rfl) | rfl) | rfl) | rfl | rfl | rfl) <;> decide

/-! ### Digits -/

theorem isBlank_of_isDigit {c : Char} (h : c.isDigit = true) : isBlank c = false := by
  have hne : ∀ d : Char, d.isDigit = false → c ≠ d := fun d => ne_of_isDigit h
  simp [isBlank, hne ' ' rfl, hne '\t' rfl, hne '\n' rfl, hne '\r' rfl]

/-! ### Scalars -/

/-- A value that begins with none of the three opening marks is a scalar. -/
theorem readValue_scalar {fuel : Nat} {c : Char} {cs : List Char} (hblank : isBlank c = false)
    (hc : c ≠ '"' ∧ c ≠ '[' ∧ c ≠ '{') :
    readValue (fuel + 1) (c :: cs) = readScalar (c :: cs) := by
  rw [readValue_succ, skipBlank_of_not_isBlank hblank]
  split
  · next h => exact absurd (List.cons.inj h).1 hc.1
    -- the three openings are excluded one by one
  · next h => exact absurd (List.cons.inj h).1 hc.2.1
  · next h => exact absurd (List.cons.inj h).1 hc.2.2
  · rfl

/-- A text is read up to its closing quote. -/
theorem readValue_text {fuel : Nat} {cs inner rest : List Char} {characters : Characters}
    (hopen : skipBlank cs = '"' :: inner)
    (hinner : readCharacters inner = some (characters, rest)) :
    readValue (fuel + 1) cs = some (.text characters, rest) := by
  rw [readValue_succ, hopen]
  simp only [hinner, Option.map_some]

/-! ### Arrays -/

/-- An item is the last one if the array ends behind it. -/
theorem readItems_last {fuel : Nat} {cs tail rest : List Char} {item : Value}
    (hitem : readValue fuel cs = some (item, tail)) (hclose : skipBlank tail = ']' :: rest) :
    readItems (fuel + 1) cs = some ([item], rest) := by
  rw [readItems_succ, hitem]
  simp only [Option.bind_eq_bind, Option.bind_some, hclose]
  rfl

theorem readItems_cons {fuel : Nat} {cs tail more rest : List Char} {item : Value}
    {items : List Value} (hitem : readValue fuel cs = some (item, tail))
    (hcomma : skipBlank tail = ',' :: more) (hmore : readItems fuel more = some (items, rest)) :
    readItems (fuel + 1) cs = some (item :: items, rest) := by
  rw [readItems_succ, hitem]
  simp only [Option.bind_eq_bind, Option.bind_some, hcomma, hmore]
  rfl

/-- **Items are read one by one**: one that the array ends behind, or one with a comma and more items
behind it. -/
theorem readItems_eq_some {fuel : Nat} {cs rest : List Char} {values : List Value}
    (h : readItems (fuel + 1) cs = some (values, rest)) :
    ∃ item tail, readValue fuel cs = some (item, tail) ∧
      (skipBlank tail = ']' :: rest ∧ values = [item] ∨
        ∃ more items, skipBlank tail = ',' :: more ∧ readItems fuel more = some (items, rest) ∧
          values = item :: items) := by
  rw [readItems_succ] at h
  obtain ⟨⟨item, tail⟩, hitem, hnext⟩ := Option.bind_eq_some_iff.1 h
  refine ⟨item, tail, hitem, ?_⟩
  dsimp only at hnext
  split at hnext
  · next more hcomma =>
    obtain ⟨⟨items, rest'⟩, hmore, hpair⟩ := Option.bind_eq_some_iff.1 hnext
    obtain ⟨rfl, rfl⟩ := Prod.mk.inj (Option.some.inj hpair)
    exact .inr ⟨more, items, hcomma, hmore, rfl⟩
  · next hclose =>
    obtain ⟨rfl, rfl⟩ := Prod.mk.inj (Option.some.inj hnext)
    exact .inl ⟨hclose, rfl⟩
  · cases hnext

theorem readValue_emptyArray {fuel : Nat} {cs inner rest : List Char}
    (hopen : skipBlank cs = '[' :: inner) (hclose : skipBlank inner = ']' :: rest) :
    readValue (fuel + 1) cs = some (.array [], rest) := by
  rw [readValue_succ, hopen]
  simp only [hclose]

/-- An array that is not closed at once has items. -/
theorem readValue_array {fuel : Nat} {cs inner rest : List Char} {items : List Value}
    (hopen : skipBlank cs = '[' :: inner) (hfirst : ∀ tail, skipBlank inner ≠ ']' :: tail)
    (hitems : readItems fuel inner = some (items, rest)) :
    readValue (fuel + 1) cs = some (.array items, rest) := by
  have hskipped : readItems fuel (skipBlank inner) = some (items, rest) := by
    rw [readItems_congr (skipBlank_skipBlank inner), hitems]
  rw [readValue_succ, hopen]
  -- the first item is not a closing mark, by `hfirst`
  simp only [hskipped, Option.map_some]

/-! ### Objects -/

/-- A member is the last one if the object ends behind it. -/
theorem readMembers_last {fuel : Nat} {cs inner afterKey afterColon tail rest : List Char}
    {key : Characters} {value : Value} (hopen : skipBlank cs = '"' :: inner)
    (hkey : readCharacters inner = some (key, afterKey))
    (hcolon : skipBlank afterKey = ':' :: afterColon)
    (hvalue : readValue fuel afterColon = some (value, tail))
    (hclose : skipBlank tail = '}' :: rest) :
    readMembers (fuel + 1) cs = some ([(key, value)], rest) := by
  rw [readMembers_succ, hopen]
  simp only [hkey, Option.bind_eq_bind, Option.bind_some, hcolon, hvalue, hclose]
  rfl

theorem readMembers_cons {fuel : Nat} {cs inner afterKey afterColon tail more rest : List Char}
    {key : Characters} {value : Value} {members : List (Characters × Value)}
    (hopen : skipBlank cs = '"' :: inner)
    (hkey : readCharacters inner = some (key, afterKey))
    (hcolon : skipBlank afterKey = ':' :: afterColon)
    (hvalue : readValue fuel afterColon = some (value, tail))
    (hcomma : skipBlank tail = ',' :: more) (hmore : readMembers fuel more = some (members, rest)) :
    readMembers (fuel + 1) cs = some ((key, value) :: members, rest) := by
  rw [readMembers_succ, hopen]
  simp only [hkey, Option.bind_eq_bind, Option.bind_some, hcolon, hvalue, hcomma, hmore]
  rfl

/-- **Members are read one by one**: a key, a colon and a value, then the end of the object, or a
comma and more members. -/
theorem readMembers_eq_some {fuel : Nat} {cs rest : List Char}
    {entries : List (Characters × Value)}
    (h : readMembers (fuel + 1) cs = some (entries, rest)) :
    ∃ inner key afterKey afterColon value tail,
      skipBlank cs = '"' :: inner ∧ readCharacters inner = some (key, afterKey) ∧
      skipBlank afterKey = ':' :: afterColon ∧ readValue fuel afterColon = some (value, tail) ∧
      (skipBlank tail = '}' :: rest ∧ entries = [(key, value)] ∨
        ∃ more members, skipBlank tail = ',' :: more ∧
          readMembers fuel more = some (members, rest) ∧ entries = (key, value) :: members) := by
  rw [readMembers_succ] at h
  split at h
  · next inner hopen =>
    obtain ⟨⟨key, afterKey⟩, hkey, hnext⟩ := Option.bind_eq_some_iff.1 h
    dsimp only at hnext
    split at hnext
    · next afterColon hcolon =>
      obtain ⟨⟨value, tail⟩, hvalue, hend⟩ := Option.bind_eq_some_iff.1 hnext
      refine ⟨inner, key, afterKey, afterColon, value, tail, hopen, hkey, hcolon, hvalue, ?_⟩
      dsimp only at hend
      split at hend
      · next more hcomma =>
        obtain ⟨⟨members, rest'⟩, hmore, hpair⟩ := Option.bind_eq_some_iff.1 hend
        obtain ⟨rfl, rfl⟩ := Prod.mk.inj (Option.some.inj hpair)
        exact .inr ⟨more, members, hcomma, hmore, rfl⟩
      · next hclose =>
        obtain ⟨rfl, rfl⟩ := Prod.mk.inj (Option.some.inj hend)
        exact .inl ⟨hclose, rfl⟩
      · -- neither a comma nor the end of the object
        cases hend
    · -- no colon behind the key
      cases hnext
  · -- no key
    cases h

theorem readValue_emptyObject {fuel : Nat} {cs inner rest : List Char}
    (hopen : skipBlank cs = '{' :: inner) (hclose : skipBlank inner = '}' :: rest) :
    readValue (fuel + 1) cs = some (.object [], rest) := by
  rw [readValue_succ, hopen]
  simp only [hclose]

/-- An object that is not closed at once has members. -/
theorem readValue_object {fuel : Nat} {cs inner rest : List Char}
    {members : List (Characters × Value)} (hopen : skipBlank cs = '{' :: inner)
    (hfirst : ∀ tail, skipBlank inner ≠ '}' :: tail)
    (hmembers : readMembers fuel inner = some (members, rest)) :
    readValue (fuel + 1) cs = some (.object members, rest) := by
  have hskipped : readMembers fuel (skipBlank inner) = some (members, rest) := by
    rw [readMembers_congr (skipBlank_skipBlank inner), hmembers]
  rw [readValue_succ, hopen]
  -- the first member is not a closing mark, by `hfirst`
  simp only [hskipped, Option.map_some]

/-! ### Whole texts -/

/-- A value is the value of a text if only blanks follow it. -/
theorem ofText?_of_readValue {cs rest : List Char} {value : Value}
    (hvalue : readValue (2 * cs.length + 2) cs = some (value, rest)) (hrest : skipBlank rest = []) :
    Value.ofText? cs = some value := by
  rw [Value.ofText?, hvalue]
  dsimp only
  rw [hrest]
  rfl

end PackageGraph.Json
