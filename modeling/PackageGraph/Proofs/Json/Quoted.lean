import PackageGraph.Json.Quoted

/-!
# Quoted texts read back

What is written between quotes is read back character for character, and reading stops at the
closing quote, whatever follows it (`Quoted.decode_encode`).

Reading goes in two steps, elements first and then the characters that they make, so the two sides
meet in the middle: every character is written as one element (`Quoted.elementOf`). A control
character without a short escape is written as a UTF-16 unit. Its number is far below those of the
surrogates, so that it is never taken for half of a pair (`Quoted.assemble_elementOf`).
-/

namespace PackageGraph.Json.Quoted

/-! ### Elements -/

/-- The element that a character is written as: a unit for a control character without a short
escape. -/
def elementOf (c : Char) : Element :=
  if c.toNat < 0x20 ∧ c ∉ ['\x08', '\t', '\n', '\x0c', '\r'] then .unit c.toNat else .character c

theorem elements_shortEscape {e c : Char} (hunit : e ≠ 'u') (hescape : shortEscape? e = some c)
    (rest : List Char) :
    elements ('\\' :: e :: rest) =
      (elements rest).map fun (found, rest) => (.character c :: found, rest) := by
  rw [elements, hescape]
  · cases elements rest <;> rfl
  · exact fun _ _ _ _ _ h => absurd h hunit

theorem elements_unit {n : Nat} {a b c d : Char} (h : unit? a b c d = some n) (rest : List Char) :
    elements ('\\' :: 'u' :: a :: b :: c :: d :: rest) =
      (elements rest).map fun (found, rest) => (.unit n :: found, rest) := by
  rw [elements, h]
  cases elements rest <;> rfl

theorem elements_raw {c : Char} (hquote : c ≠ '"') (hbackslash : c ≠ '\\')
    (hcontrol : ¬c.toNat < 0x20) (rest : List Char) :
    elements (c :: rest) =
      (elements rest).map fun (found, rest) => (.character c :: found, rest) := by
  rw [elements, if_neg (not_or.2 ⟨hbackslash, hcontrol⟩)]
  · cases elements rest <;> rfl
  · -- the character opens neither the end of the text nor an escape
    exact hquote
  · exact fun _ _ _ _ _ h => absurd h hbackslash
  · exact fun _ _ h => absurd h hbackslash

/-- The digits that a control character is written with stand for its number. -/
theorem unit?_hexDigit :
    ∀ n < 0x20, unit? '0' '0' (hexDigit (n / 16)) (hexDigit (n % 16)) = some n := by
  decide

/-- **A character is written as one element.** -/
theorem elements_escape (c : Char) (rest : List Char) :
    elements (escape c ++ rest) =
      (elements rest).map fun (found, rest) => (elementOf c :: found, rest) := by
  unfold escape
  split
  case h_8 _ hquote hbackslash hb ht hn hf hr =>
    split
    · next hcontrol =>
      have helement : elementOf c = .unit c.toNat :=
        if_pos ⟨hcontrol, by simpa using ⟨hb, ht, hn, hf, hr⟩⟩
      rw [helement]
      exact elements_unit (unit?_hexDigit _ hcontrol) rest
    · next hcontrol =>
      -- any other character is written as it is
      have helement : elementOf c = .character c := if_neg fun h => hcontrol h.1
      rw [helement]
      exact elements_raw hquote hbackslash hcontrol rest
  -- the other cases are the characters with a short escape
  all_goals exact elements_shortEscape (by decide) rfl rest

/-- **A text is written as the elements of its characters**, one for each. -/
theorem elements_encode (cs rest : List Char) :
    elements (encode cs ++ '"' :: rest) = some (cs.map elementOf, rest) := by
  induction cs with
  | nil => rfl
  | cons c cs ih => rw [encode_cons, List.append_assoc, elements_escape, ih]; rfl

/-! ### Characters -/

/-- A unit below the surrogates is a character of its own, whatever comes after it. -/
theorem assemble_unit {n : Nat} (h : n < 0xD800) (rest : List Element) :
    assemble (.unit n :: rest) = (assemble rest).map (Char.ofNat n :: ·) := by
  have hleading : isLeading n = false := by simp [isLeading]; omega
  have htrailing : isTrailing n = false := by simp [isTrailing]; omega
  cases rest with
  | nil => simp [assemble, hleading, htrailing]
  | cons next rest => cases next <;> simp [assemble, hleading, htrailing]

/-- The element of a character stands for the character. -/
theorem assemble_elementOf (c : Char) (rest : List Element) :
    assemble (elementOf c :: rest) = (assemble rest).map (c :: ·) := by
  rw [elementOf]
  split
  · next h => rw [assemble_unit (by omega), Char.ofNat_toNat]
  · rw [assemble]

theorem assemble_map_elementOf (cs : List Char) : assemble (cs.map elementOf) = some cs := by
  induction cs with
  | nil => rfl
  | cons c cs ih => rw [List.map_cons, assemble_elementOf, ih]; rfl

/-- **A text is read back from between its quotes**, and what follows it is left. -/
theorem decode_encode (cs rest : List Char) :
    decode (encode cs ++ '"' :: rest) = some (some cs, rest) := by
  simp only [decode, elements_encode, Option.map_some, assemble_map_elementOf]

end PackageGraph.Json.Quoted
