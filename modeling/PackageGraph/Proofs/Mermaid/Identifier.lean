import Mathlib.Data.List.Basic
import PackageGraph.Mermaid
import PackageGraph.Proofs.Text.Decimal

/-!
# The identifiers of a chart

A chart gives an identifier of the records a short one of its own: the characters that
`Mermaid.isReplaced` lists become underscores, and a number may be put behind
(`Mermaid.get_assign`). Every other character is kept (`Mermaid.mem_get_assign`). Of the characters
that must not stand in a statement the list has the space alone, so an identifier of the chart is
free of such characters exactly when the identifier of the records has none but spaces
(`Mermaid.isSafe_get_assign`).
-/

namespace PackageGraph.Mermaid

open Sorted

/-- The characters with a meaning in the statements of a chart. -/
def isStructural (c : Char) : Bool :=
  ['[', ']', '(', ')', '\x7b', '\x7d', '<', '>', '|', '"', ';', '#'].contains c

/-- Must the character not stand in an identifier of a chart? Blanks separate statements and their
parts, and structural characters begin or end a part. -/
def isUnsafe (c : Char) : Bool := Text.isBlank c || isStructural c

/-- No character of the identifier cuts a statement. -/
def IsSafe (id : String) : Prop := ∀ c ∈ id.toList, isUnsafe c = false

/-- Nothing but an underscore and digits. -/
def IsNumbering (cs : List Char) : Prop := ∀ c ∈ cs, c = '_' ∨ c.isDigit = true

/-! ### Characters -/

theorem isUnsafe_of_isDigit {c : Char} (h : c.isDigit = true) : isUnsafe c = false := by
  have hrange : 48 ≤ c.toNat ∧ c.toNat ≤ 57 := by
    simp only [Char.isDigit, Bool.and_eq_true, decide_eq_true_eq, ge_iff_le,
      UInt32.le_iff_toNat_le] at h
    exact h
  -- digits are in none of the ranges of blanks
  have hblank : Text.isBlank c = false := by
    simp only [Text.isBlank, Text.blankRanges, List.any_cons, List.any_nil, Bool.or_false,
      Bool.or_eq_false_iff, Bool.and_eq_false_iff, decide_eq_false_iff_not]
    omega
  have hstructural : isStructural c = false := by
    simp only [isStructural, List.contains_eq_mem, decide_eq_false_iff_not, List.mem_cons,
      List.not_mem_nil, or_false]
    rintro (rfl | rfl | rfl | rfl | rfl | rfl | rfl | rfl | rfl | rfl | rfl | rfl) <;> cases h
  rw [isUnsafe, hblank, hstructural]
  rfl

theorem IsNumbering.isSafe {cs : List Char} (h : IsNumbering cs) {c : Char} (hc : c ∈ cs) :
    isUnsafe c = false := by
  rcases h c hc with rfl | hdigit
  · decide
  · exact isUnsafe_of_isDigit hdigit

theorem IsNumbering.isReplaced {cs : List Char} (h : IsNumbering cs) {c : Char} (hc : c ∈ cs) :
    isReplaced c = false := by
  rcases h c hc with rfl | hdigit
  · decide
  · -- no digit is in the list
    simp only [Mermaid.isReplaced, List.contains_eq_mem, decide_eq_false_iff_not, List.mem_cons,
      List.not_mem_nil, or_false]
    rintro (rfl | rfl | rfl | rfl | rfl | rfl | rfl | rfl) <;> cases hdigit

/-- Of the characters that are replaced, only the space is unsafe. -/
theorem eq_space_of_isReplaced {c : Char} (hreplaced : isReplaced c = true)
    (hcuts : isUnsafe c = true) : c = ' ' := by
  simp only [isReplaced, List.contains_eq_mem, List.mem_cons, List.not_mem_nil, or_false,
    decide_eq_true_eq] at hreplaced
  rcases hreplaced with rfl | rfl | rfl | rfl | rfl | rfl | rfl | rfl <;>
    first | rfl | (exfalso; revert hcuts; decide)

/-- The characters of a plain form are those that are kept, and the underscore if any is replaced.
-/
theorem mem_plainId {id : String} {c : Char} :
    c ∈ (plainId id).toList ↔
      c ∈ id.toList ∧ isReplaced c = false ∨ c = '_' ∧ ∃ c' ∈ id.toList, isReplaced c' = true := by
  rw [plainId, String.toList_ofList, List.mem_map]
  constructor
  · rintro ⟨c', hc', rfl⟩
    cases hreplaced : isReplaced c' with
    | true => exact .inr ⟨rfl, c', hc', hreplaced⟩
    | false => exact .inl ⟨hc', hreplaced⟩
  · rintro (⟨hc, hreplaced⟩ | ⟨rfl, c', hc', hreplaced⟩)
    · exact ⟨c, hc, by simp [hreplaced]⟩
    · exact ⟨c', hc', by simp [hreplaced]⟩

/-! ### What is given out -/

/-- What is given out is the base with a numbering behind it. -/
theorem freshId_eq (used : Sorted.Set String) (base : String) :
    ∃ suffix, (freshId used base).toList = base.toList ++ suffix ∧ IsNumbering suffix := by
  have hbase : ∃ suffix, base.toList = base.toList ++ suffix ∧ IsNumbering suffix :=
    ⟨[], (List.append_nil _).symm, nofun⟩
  cases hfind : (candidates used base).find? fun id => !used.contains id with
  | none =>
    rw [freshId, hfind]
    exact hbase
  | some id =>
    rw [freshId, hfind, Option.getD_some]
    rcases List.mem_cons.1 (List.mem_of_find?_eq_some hfind) with rfl | hmem
    · exact hbase
    · -- any candidate but the first has a number behind the base
      obtain ⟨k, -, rfl⟩ := List.mem_map.1 hmem
      refine ⟨'_' :: Text.decimal (k + 2), by simp [numbered], fun c hc => ?_⟩
      rcases List.mem_cons.1 hc with rfl | hc
      · exact .inl rfl
      · exact .inr (Text.isDigit_of_mem_decimal hc)

/-- Every identifier that was given out is the plain form of its own, with a number behind it or
none. -/
def Assignment.Plain (a : Assignment) : Prop :=
  ∀ id fresh, a.assigned.get? id = some fresh →
    ∃ suffix, fresh.toList = (plainId id).toList ++ suffix ∧ IsNumbering suffix

theorem Assignment.plain_empty : empty.Plain := by
  intro id fresh h
  cases h

/-- One more identifier gets its plain form with a numbering. -/
theorem Assignment.Plain.add {a : Assignment} (h : a.Plain) (id : String) : (a.add id).Plain := by
  intro id' fresh hfresh
  by_cases hid : id' = id
  · subst hid
    rw [Assignment.add, Map.get?_insert_self, Option.some.injEq] at hfresh
    exact hfresh ▸ freshId_eq a.used (plainId id')
  · rw [Assignment.add, Map.get?_insert_of_ne _ _ hid] at hfresh
    exact h id' fresh hfresh

theorem Assignment.plain_foldl {a : Assignment} (h : a.Plain) (ids : List String) :
    (ids.foldl Assignment.add a).Plain := by
  induction ids generalizing a with
  | nil => exact h
  | cons id ids ih => exact ih (h.add id)

/-- **The identifier of a chart** is the plain form of the identifier of the records, with a number
behind it or none. -/
theorem get_assign (records : Records) (id : String) :
    ∃ suffix, ((assign records).get id).toList = (plainId id).toList ++ suffix ∧
      IsNumbering suffix := by
  have hplain : (assign records).Plain := Assignment.plain_foldl Assignment.plain_empty _
  rw [Assignment.get]
  cases hget : (assign records).assigned.get? id with
  | none => exact ⟨[], (List.append_nil _).symm, nofun⟩
  | some fresh => exact hplain id fresh hget

/-- **Characters that are not replaced are kept**, and unsafe ones are not made. -/
theorem mem_get_assign {records : Records} {id : String} {c : Char} (h : isUnsafe c = true) :
    c ∈ ((assign records).get id).toList ↔ c ∈ id.toList ∧ isReplaced c = false := by
  obtain ⟨suffix, hget, hsuffix⟩ := get_assign records id
  have hnotSuffix : c ∉ suffix := fun hc => by
    rw [hsuffix.isSafe hc] at h
    cases h
  have hne : c ≠ '_' := by
    rintro rfl
    revert h
    decide
  rw [hget, List.mem_append, mem_plainId]
  simp only [hnotSuffix, hne, false_and, or_false]

/-- **Which identifiers are made safe**: those without unsafe characters other than spaces. -/
theorem isSafe_get_assign {records : Records} {id : String} :
    IsSafe ((assign records).get id) ↔ ∀ c ∈ id.toList, isUnsafe c = true → c = ' ' := by
  constructor
  · -- an unsafe character that is no space is kept, so it is unsafe in the chart
    intro h c hc hcuts
    by_contra hspace
    have hkept : isReplaced c = false := by
      by_contra hreplaced
      exact hspace (eq_space_of_isReplaced (by simpa using hreplaced) hcuts)
    rw [h c ((mem_get_assign hcuts).2 ⟨hc, hkept⟩)] at hcuts
    cases hcuts
  · -- an unsafe character of the chart is one of the records, and spaces are replaced
    intro h c hc
    cases hcuts : isUnsafe c with
    | false => rfl
    | true =>
      obtain ⟨hmem, hkept⟩ := (mem_get_assign hcuts).1 hc
      obtain rfl := h c hmem hcuts
      revert hkept
      decide

end PackageGraph.Mermaid
