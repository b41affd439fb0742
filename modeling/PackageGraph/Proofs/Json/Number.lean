import Mathlib.Data.List.TakeWhile
import PackageGraph.Proofs.Json.Reading

/-!
# Numbers in JSON

The grammar of numbers (`IsNumber`), with what each of them stands for: digits alone stand for a
natural number (`isNumber_decimal`), and any other number keeps no value. A number is read exactly
if it is one of the grammar (`isNumber_of_readNumber`, `readNumber_append`).

Nothing ends a number but what follows it. The parts of a number are told apart by the character
that they begin with, so each part is read to its end because the next one, or what delimits the
number, does not go on with it.
-/

namespace PackageGraph.Json

open Text

/-! ### The grammar -/

/-- One or more digits. -/
structure IsDigits (digits : List Char) : Prop where
  ne_nil : digits ≠ []
  isDigit : ∀ c ∈ digits, c.isDigit = true

/-- The digits before a point: a zero alone, or digits that do not begin with zero. -/
structure IsWhole (digits : List Char) : Prop extends IsDigits digits where
  zero : digits.head? = some '0' → digits = ['0']

/-- A fraction, which may be missing. -/
inductive IsFraction : List Char → Prop
  | none : IsFraction []
  | point {digits : List Char} : IsDigits digits → IsFraction ('.' :: digits)

/-- An exponent, which may be missing. -/
inductive IsExponent : List Char → Prop
  | none : IsExponent []
  | mark {c : Char} {sign digits : List Char} : c = 'e' ∨ c = 'E' →
      sign = [] ∨ sign = ['+'] ∨ sign = ['-'] → IsDigits digits → IsExponent (c :: (sign ++ digits))

/-- A number, with the value that it stands for. -/
inductive IsNumber : List Char → Value → Prop
  | natural {whole : List Char} : IsWhole whole → IsNumber whole (.natural (ofDigits whole))
  | other {sign whole fraction exponent : List Char} : sign = [] ∨ sign = ['-'] → IsWhole whole →
      IsFraction fraction → IsExponent exponent → sign ++ (fraction ++ exponent) ≠ [] →
      IsNumber (sign ++ (whole ++ (fraction ++ exponent))) .otherNumber

theorem IsDigits.exists_cons {digits : List Char} (h : IsDigits digits) :
    ∃ c cs, digits = c :: cs ∧ c.isDigit = true := by
  obtain ⟨c, cs, rfl⟩ := List.exists_cons_of_ne_nil h.ne_nil
  exact ⟨c, cs, rfl, h.isDigit c List.mem_cons_self⟩

/-- A character that numbers may begin with: a sign or a digit. -/
def IsNumberHead (c : Char) : Prop := c = '-' ∨ c.isDigit = true

instance (c : Char) : Decidable (IsNumberHead c) :=
  inferInstanceAs (Decidable (c = '-' ∨ c.isDigit = true))

/-- What a number may begin with is no other character. -/
theorem IsNumberHead.ne {c d : Char} (h : IsNumberHead c) (hminus : '-' ≠ d)
    (hd : d.isDigit = false) : c ≠ d := by
  rcases h with rfl | hc
  · exact hminus
  · exact ne_of_isDigit hc hd

theorem IsNumberHead.isBlank {c : Char} (h : IsNumberHead c) : isBlank c = false := by
  rcases h with rfl | hc
  · rfl
  · exact isBlank_of_isDigit hc

/-- Every number begins with a sign or a digit. -/
theorem IsNumber.exists_cons {text : List Char} {value : Value} (h : IsNumber text value) :
    ∃ c cs, text = c :: cs ∧ IsNumberHead c := by
  cases h with
  | natural hwhole =>
    obtain ⟨c, cs, rfl, hc⟩ := hwhole.exists_cons
    exact ⟨c, cs, rfl, .inr hc⟩
  | other hsign hwhole _ _ _ =>
    obtain ⟨c, cs, rfl, hc⟩ := hwhole.exists_cons
    rcases hsign with rfl | rfl
    · exact ⟨c, _, rfl, .inr hc⟩
    · exact ⟨'-', _, rfl, .inl rfl⟩

/-! ### Decimal digits -/

/-- **A natural number is spelled by its decimal digits.** -/
theorem isNumber_decimal (n : Nat) : IsNumber (decimal n) (.natural n) := by
  have hzero : (decimal n).head? = some '0' → decimal n = ['0'] := by
    intro h
    rw [head?_decimal h, decimal_zero]
  have hnumber : IsNumber (decimal n) (.natural (ofDigits (decimal n))) :=
    .natural ⟨⟨Nat.toDigits_ne_nil, fun _ => isDigit_of_mem_decimal⟩, hzero⟩
  rwa [ofDigits_decimal] at hnumber

/-! ### Digits behind a mark -/

/-- What follows the digits that a text begins with, if there are any. -/
def afterDigits (cs : List Char) : Option (List Char) :=
  match spanDigits cs with
  | ([], _) => none
  | (_, rest) => some rest

/-- What follows a sign, which may be missing. -/
def dropSign : List Char → List Char
  | '+' :: rest => rest
  | '-' :: rest => rest
  | cs => cs

theorem dropSign_of_ne {c : Char} (hplus : c ≠ '+') (hminus : c ≠ '-') (cs : List Char) :
    dropSign (c :: cs) = c :: cs := by
  unfold dropSign
  split
  · next heq => exact absurd (List.cons.inj heq).1 hplus
  · next heq => exact absurd (List.cons.inj heq).1 hminus
  · rfl

/-- What is dropped is a sign, or nothing. -/
theorem exists_sign (cs : List Char) :
    ∃ sign, (sign = [] ∨ sign = ['+'] ∨ sign = ['-']) ∧ cs = sign ++ dropSign cs := by
  unfold dropSign
  split
  · exact ⟨['+'], .inr (.inl rfl), rfl⟩
  · exact ⟨['-'], .inr (.inr rfl), rfl⟩
  · exact ⟨[], .inl rfl, rfl⟩

theorem skipFraction_point (cs : List Char) : skipFraction ('.' :: cs) = afterDigits cs := rfl

/-- Behind the mark of an exponent, a sign and digits are skipped. -/
theorem skipExponent_mark {c : Char} (hmark : c = 'e' ∨ c = 'E') (cs : List Char) :
    skipExponent (c :: cs) = afterDigits (dropSign cs) := if_pos hmark

/-! ### What is read is a number -/

theorem spanDigits_eq {cs digits rest : List Char} (h : spanDigits cs = (digits, rest)) :
    cs = digits ++ rest ∧ ∀ c ∈ digits, c.isDigit = true := by
  obtain ⟨rfl, rfl⟩ := Prod.mk.inj h
  exact ⟨List.takeWhile_append_dropWhile.symm, fun c hc => List.mem_takeWhile_imp hc⟩

/-- What is read before a point is the whole part of a number. -/
theorem isWhole_of_readWhole {cs digits rest : List Char} (h : readWhole cs = some (digits, rest)) :
    cs = digits ++ rest ∧ IsWhole digits := by
  unfold readWhole at h
  split at h
  · -- a zero alone
    obtain ⟨rfl, rfl⟩ := Prod.mk.inj (Option.some.inj h)
    refine ⟨rfl, ⟨by decide, ?_⟩, fun _ => rfl⟩
    simp
  · next hzero =>
    split at h
    · cases h
    · next found _ hempty =>
      obtain ⟨hcs, hdigits⟩ := spanDigits_eq (Option.some.inj h)
      have hne : digits ≠ [] := by
        rintro rfl
        exact hempty rest (Option.some.inj h)
      refine ⟨hcs, ⟨hne, hdigits⟩, fun hhead => ?_⟩
      -- a leading zero is read by the other case
      obtain ⟨more, rfl⟩ := List.head?_eq_some_iff.1 hhead
      exact absurd hcs (hzero _)

theorem digits_of_afterDigits {cs rest : List Char} (h : afterDigits cs = some rest) :
    ∃ digits, cs = digits ++ rest ∧ IsDigits digits := by
  unfold afterDigits at h
  split at h
  · cases h
  · next digits left hempty hspan =>
    obtain rfl := Option.some.inj h
    obtain ⟨rfl, hdigits⟩ := spanDigits_eq hspan
    refine ⟨digits, rfl, ?_, hdigits⟩
    rintro rfl
    exact hempty rfl

/-- What is skipped behind the whole part is a fraction. -/
theorem isFraction_of_skipFraction {cs rest : List Char} (h : skipFraction cs = some rest) :
    ∃ fraction, cs = fraction ++ rest ∧ IsFraction fraction := by
  unfold skipFraction at h
  split at h
  · next after =>
    obtain ⟨digits, rfl, hdigits⟩ := digits_of_afterDigits h
    exact ⟨'.' :: digits, rfl, .point hdigits⟩
  · obtain rfl := Option.some.inj h
    exact ⟨[], rfl, .none⟩

theorem isExponent_of_skipExponent {cs rest : List Char} (h : skipExponent cs = some rest) :
    ∃ exponent, cs = exponent ++ rest ∧ IsExponent exponent := by
  cases cs with
  | nil =>
    obtain rfl := Option.some.inj h
    exact ⟨[], rfl, .none⟩
  | cons c after =>
    by_cases hmark : c = 'e' ∨ c = 'E'
    · rw [skipExponent_mark hmark] at h
      obtain ⟨digits, hunsigned, hdigits⟩ := digits_of_afterDigits h
      obtain ⟨sign, hsign, hafter⟩ := exists_sign after
      refine ⟨c :: (sign ++ digits), ?_, .mark hmark hsign hdigits⟩
      rw [hafter, hunsigned, List.cons_append, List.append_assoc]
    · have hskip : skipExponent (c :: after) = some (c :: after) := if_neg hmark
      obtain rfl := Option.some.inj (hskip.symm.trans h)
      exact ⟨[], rfl, .none⟩

/-- The parts of a number that are read one after another. -/
theorem exists_parts {cs whole afterWhole afterFraction rest : List Char}
    (hreadWhole : readWhole cs = some (whole, afterWhole))
    (hskipFraction : skipFraction afterWhole = some afterFraction)
    (hskipExponent : skipExponent afterFraction = some rest) :
    IsWhole whole ∧ ∃ fraction exponent, IsFraction fraction ∧ IsExponent exponent ∧
      afterWhole = fraction ++ (exponent ++ rest) ∧ cs = whole ++ afterWhole := by
  obtain ⟨hcs, hwhole⟩ := isWhole_of_readWhole hreadWhole
  obtain ⟨fraction, rfl, hfraction⟩ := isFraction_of_skipFraction hskipFraction
  obtain ⟨exponent, rfl, hexponent⟩ := isExponent_of_skipExponent hskipExponent
  exact ⟨hwhole, fraction, exponent, hfraction, hexponent, rfl, hcs⟩

/-- A part behind the digits is not empty, so that the rest is shorter than what follows them. -/
theorem length_ne_of_ne_nil {fraction exponent : List Char} (h : fraction ++ exponent ≠ [])
    (rest : List Char) : rest.length ≠ (fraction ++ (exponent ++ rest)).length := by
  have hlength := List.length_pos_of_ne_nil h
  rw [List.length_append] at hlength
  simp only [List.length_append]
  omega

/-- **What is read as a number is a number.** -/
theorem isNumber_of_readNumber {cs rest : List Char} {value : Value}
    (h : readNumber cs = some (value, rest)) : ∃ text, cs = text ++ rest ∧ IsNumber text value := by
  unfold readNumber at h
  split at h
  · -- a number with a sign keeps no value
    simp only [Option.bind_eq_bind, Option.bind_eq_some_iff] at h
    obtain ⟨⟨whole, afterWhole⟩, hreadWhole, afterFraction, hskipFraction, afterExponent,
      hskipExponent, h⟩ := h
    obtain ⟨rfl, rfl⟩ := Prod.mk.inj (Option.some.inj h)
    obtain ⟨hwhole, fraction, exponent, hfraction, hexponent, rfl, rfl⟩ :=
      exists_parts hreadWhole hskipFraction hskipExponent
    refine ⟨['-'] ++ (whole ++ (fraction ++ exponent)), by simp, ?_⟩
    exact .other (.inr rfl) hwhole hfraction hexponent (by simp)
  · simp only [Option.bind_eq_bind, Option.bind_eq_some_iff] at h
    obtain ⟨⟨whole, afterWhole⟩, hreadWhole, afterFraction, hskipFraction, afterExponent,
      hskipExponent, h⟩ := h
    obtain ⟨hvalue, rfl⟩ := Prod.mk.inj (Option.some.inj h)
    obtain ⟨hwhole, fraction, exponent, hfraction, hexponent, rfl, rfl⟩ :=
      exists_parts hreadWhole hskipFraction hskipExponent
    refine ⟨whole ++ (fraction ++ exponent), by simp, ?_⟩
    by_cases hnil : fraction ++ exponent = []
    · -- digits and nothing else are a natural number
      obtain ⟨rfl, rfl⟩ := List.append_eq_nil_iff.1 hnil
      rw [List.append_nil, List.append_nil, ← hvalue]
      exact if_pos rfl ▸ .natural hwhole
    · -- a fraction or an exponent behind them keeps no value
      rw [if_neg (length_ne_of_ne_nil hnil afterExponent)] at hvalue
      rw [← hvalue]
      exact .other (.inl rfl) hwhole hfraction hexponent hnil

/-! ### Numbers are read -/

variable {rest : List Char}

/-- Digits are read to their end, if no digit follows. -/
theorem spanDigits_append {digits : List Char} (hdigits : ∀ c ∈ digits, c.isDigit = true)
    (hrest : ∀ c ∈ rest.head?, c.isDigit = false) :
    spanDigits (digits ++ rest) = (digits, rest) := by
  rw [spanDigits, List.takeWhile_append_of_pos hdigits, List.dropWhile_append_of_pos hdigits]
  cases rest with
  | nil => simp
  | cons c cs => simp [hrest c rfl]

theorem afterDigits_append {digits : List Char} (h : IsDigits digits)
    (hrest : ∀ c ∈ rest.head?, c.isDigit = false) : afterDigits (digits ++ rest) = some rest := by
  rw [afterDigits, spanDigits_append h.isDigit hrest]
  obtain ⟨c, cs, rfl, -⟩ := h.exists_cons
  rfl

/-- The whole part is read to its end, if no digit follows. -/
theorem readWhole_append {digits : List Char} (h : IsWhole digits)
    (hrest : ∀ c ∈ rest.head?, c.isDigit = false) :
    readWhole (digits ++ rest) = some (digits, rest) := by
  obtain ⟨c, cs, rfl, -⟩ := h.exists_cons
  by_cases hc : c = '0'
  · -- behind a zero in front there is nothing
    obtain rfl : cs = [] := by simpa [hc] using h.zero
    rw [hc]
    rfl
  · have hspan := spanDigits_append h.isDigit hrest
    rw [List.cons_append] at hspan ⊢
    rw [readWhole, hspan]
    exact fun _ heq => hc (List.cons.inj heq).1

/-- A fraction is skipped to its end, if neither a digit nor a point follows. -/
theorem skipFraction_append {fraction : List Char} (h : IsFraction fraction)
    (hrest : ∀ c ∈ rest.head?, c.isDigit = false ∧ c ≠ '.') :
    skipFraction (fraction ++ rest) = some rest := by
  cases h with
  | none =>
    rw [List.nil_append]
    cases rest with
    | nil => rfl
    | cons c cs =>
      rw [skipFraction]
      exact fun _ heq => (hrest c rfl).2 (List.cons.inj heq).1
  | point hdigits =>
    rw [List.cons_append, skipFraction_point]
    exact afterDigits_append hdigits fun c hc => (hrest c hc).1

/-- An exponent is skipped to its end, if what follows delimits the number. -/
theorem skipExponent_append {exponent : List Char} (h : IsExponent exponent)
    (hrest : Delimited rest) : skipExponent (exponent ++ rest) = some rest := by
  cases h with
  | none =>
    cases rest with
    | nil => rfl
    | cons c cs => exact if_neg fun h => h.elim hrest.head.2.2.1 hrest.head.2.2.2
  | @mark c sign digits hmark hsign hdigits =>
    have hafter : afterDigits (digits ++ rest) = some rest := by
      refine afterDigits_append hdigits fun c hc => ?_
      obtain ⟨cs, rfl⟩ := List.head?_eq_some_iff.1 hc
      exact hrest.head.1
    obtain ⟨d, ds, rfl, hd⟩ := hdigits.exists_cons
    -- a digit is no sign
    have hdrop : dropSign (sign ++ (d :: ds) ++ rest) = d :: ds ++ rest := by
      rcases hsign with rfl | rfl | rfl
      · exact dropSign_of_ne (ne_of_isDigit hd rfl) (ne_of_isDigit hd rfl) _
      · rfl
      · rfl
    rw [List.cons_append, skipExponent_mark hmark, hdrop, hafter]

/-- What delimits a number goes on neither with digits nor with a fraction. -/
theorem Delimited.not_mem_head? (hrest : Delimited rest) :
    ∀ c ∈ rest.head?, c.isDigit = false ∧ c ≠ '.' := by
  intro c hc
  obtain ⟨cs, rfl⟩ := List.head?_eq_some_iff.1 hc
  exact ⟨hrest.head.1, hrest.head.2.1⟩

/-- Neither does an exponent, be it there or not. -/
theorem IsExponent.head {exponent : List Char} (h : IsExponent exponent) (hrest : Delimited rest) :
    ∀ c ∈ (exponent ++ rest).head?, c.isDigit = false ∧ c ≠ '.' := by
  cases h with
  | none => exact hrest.not_mem_head?
  | mark hmark _ _ =>
    intro c hc
    obtain rfl := Option.some.inj hc
    rcases hmark with rfl | rfl <;> decide

/-- A fraction goes on with no digits either. -/
theorem IsFraction.head {fraction exponent : List Char} (h : IsFraction fraction)
    (hexponent : IsExponent exponent) (hrest : Delimited rest) :
    ∀ c ∈ (fraction ++ (exponent ++ rest)).head?, c.isDigit = false := by
  cases h with
  | none => exact fun c hc => (hexponent.head hrest c hc).1
  | point _ =>
    intro c hc
    obtain rfl := Option.some.inj hc
    rfl

section Parts

variable {whole fraction exponent : List Char} (hwhole : IsWhole whole)
  (hfraction : IsFraction fraction) (hexponent : IsExponent exponent) (hrest : Delimited rest)

include hwhole hfraction hexponent hrest

/-- Without a sign, the three parts of a number are read one after another. It is a natural number
if nothing is left of it behind the first one. -/
theorem readNumber_unsigned :
    readNumber (whole ++ (fraction ++ (exponent ++ rest))) =
      some (if rest.length = (fraction ++ (exponent ++ rest)).length then
        .natural (ofDigits whole) else .otherNumber, rest) := by
  have hread := readWhole_append hwhole (hfraction.head hexponent hrest)
  have hpoint := skipFraction_append hfraction (hexponent.head hrest)
  have hmark := skipExponent_append hexponent hrest
  -- the first digit is no sign
  obtain ⟨c, cs, rfl, hc⟩ := hwhole.exists_cons
  have hminus : c ≠ '-' := ne_of_isDigit hc rfl
  rw [List.cons_append] at hread ⊢
  rw [readNumber]
  · simp only [hread, hpoint, hmark, Option.bind_eq_bind, Option.bind_some]
    rfl
  · exact fun _ heq => hminus (List.cons.inj heq).1

/-- Behind a sign they are read in the same way, and no value is kept. -/
theorem readNumber_negative :
    readNumber ('-' :: (whole ++ (fraction ++ (exponent ++ rest)))) =
      some (.otherNumber, rest) := by
  have hread := readWhole_append hwhole (hfraction.head hexponent hrest)
  have hpoint := skipFraction_append hfraction (hexponent.head hrest)
  have hmark := skipExponent_append hexponent hrest
  rw [readNumber]
  simp [hread, hpoint, hmark]

end Parts

/-- **A number is read to its end**, if what follows delimits it. -/
theorem readNumber_append {text : List Char} {value : Value} (h : IsNumber text value)
    (hrest : Delimited rest) : readNumber (text ++ rest) = some (value, rest) := by
  cases h with
  | natural hwhole =>
    -- the other two parts are missing
    have hread := readNumber_unsigned hwhole .none .none hrest
    rwa [List.nil_append, List.nil_append, if_pos rfl] at hread
  | @other sign whole fraction exponent hsign hwhole hfraction hexponent hne =>
    rw [List.append_assoc, List.append_assoc, List.append_assoc]
    rcases hsign with rfl | rfl
    · rw [List.nil_append] at hne ⊢
      have hread := readNumber_unsigned hwhole hfraction hexponent hrest
      rwa [if_neg (length_ne_of_ne_nil hne rest)] at hread
    · exact readNumber_negative hwhole hfraction hexponent hrest

end PackageGraph.Json
