import Mathlib.Data.List.Basic
import Mathlib.Data.List.TakeWhile
import PackageGraph.Text.Basic

/-!
# Trimmed texts

Trimming cuts marks off both ends of a text and stops at what is no mark
(`Text.trimMatches_append`, `Text.exists_append_trimMatches`). Blanks are trimmed in the same way
(`Text.trim_eq_trimMatches`), and nothing is cut off a text that neither begins nor ends with one
(`Text.trim_eq_self_iff`).
-/

namespace PackageGraph.Text

variable {p : Char → Bool}

/-- Nothing is dropped in front of what does not satisfy the condition. -/
theorem dropWhile_of_head {cs : List Char} (h : ∀ c ∈ cs.head?, p c = false) :
    cs.dropWhile p = cs := by
  cases cs with
  | nil => rfl
  | cons c cs => exact List.dropWhile_cons_of_neg (by simpa using h c rfl)

/-- What is left begins with nothing that would have been dropped. -/
theorem head_dropWhile (cs : List Char) : ∀ c ∈ (cs.dropWhile p).head?, p c = false := by
  intro c hc
  have hnot := List.head?_dropWhile_not p cs
  rwa [Option.mem_def.1 hc] at hnot

/-- What marks both ends of a text is cut off. What neither begins nor ends with a mark stays. -/
theorem trimMatches_append {before kept after : List Char}
    (hbefore : ∀ c ∈ before, p c = true) (hafter : ∀ c ∈ after, p c = true)
    (hhead : ∀ c ∈ kept.head?, p c = false) (hlast : ∀ c ∈ kept.getLast?, p c = false) :
    trimMatches p (before ++ kept ++ after) = kept := by
  rw [trimMatches, List.append_assoc, List.dropWhile_append_of_pos hbefore]
  by_cases hkept : kept = []
  · -- nothing stops the first cut, which takes the marks behind, too
    have hnil : after.dropWhile p = [] := by
      rw [← List.append_nil after, List.dropWhile_append_of_pos hafter]
      rfl
    rw [hkept, List.nil_append, hnil]
    rfl
  · -- each cut stops where what is kept begins
    have hfront : (kept ++ after).dropWhile p = kept ++ after := by
      refine dropWhile_of_head ?_
      rwa [List.head?_append_of_ne_nil _ hkept]
    have hback : (after.reverse ++ kept.reverse).dropWhile p = kept.reverse := by
      rw [List.dropWhile_append_of_pos (by simpa using hafter)]
      exact dropWhile_of_head (by rwa [List.head?_reverse])
    rw [hfront, List.reverse_append, hback, List.reverse_reverse]

/-- A trimmed text lacks nothing but marks at its ends. -/
theorem exists_append_trimMatches (p : Char → Bool) (cs : List Char) :
    ∃ before after, cs = before ++ trimMatches p cs ++ after ∧
      (∀ c ∈ before, p c = true) ∧ (∀ c ∈ after, p c = true) ∧
      (∀ c ∈ (trimMatches p cs).head?, p c = false) ∧
      ∀ c ∈ (trimMatches p cs).getLast?, p c = false := by
  have hfront : cs.takeWhile p ++ cs.dropWhile p = cs := List.takeWhile_append_dropWhile
  have hback : trimMatches p cs ++ ((cs.dropWhile p).reverse.takeWhile p).reverse =
      cs.dropWhile p := by
    rw [trimMatches, ← List.reverse_append, List.takeWhile_append_dropWhile, List.reverse_reverse]
  -- what is in front is cut by the first pass, what is behind by the second one on the reversed
  -- rest
  refine ⟨cs.takeWhile p, ((cs.dropWhile p).reverse.takeWhile p).reverse, ?_, ?_, ?_, ?_, ?_⟩
  · rw [List.append_assoc, hback, hfront]
  · exact fun c => List.mem_takeWhile_imp
  · exact fun c hc => List.mem_takeWhile_imp (List.mem_reverse.1 hc)
  · intro c hc
    refine head_dropWhile cs c ?_
    rw [← hback]
    exact List.mem_head?_append_of_mem_head? hc
  · rw [trimMatches, List.getLast?_reverse]
    exact head_dropWhile _

/-! ### Blanks -/

/-- Trimming cuts off the marks that are blank. -/
theorem trim_eq_trimMatches (cs : List Char) : trim cs = trimMatches isBlank cs := rfl

/-- Blanks behind a text make no difference to what is left of it. -/
theorem trim_append_blanks {blanks : List Char} (h : ∀ c ∈ blanks, isBlank c = true)
    (cs : List Char) : trim (cs ++ blanks) = trim cs := by
  rw [trim_eq_trimMatches, trim_eq_trimMatches]
  obtain ⟨before, after, hcs, hbefore, hafter, hhead, hlast⟩ := exists_append_trimMatches isBlank cs
  -- the text between the marks stays what is kept, with more marks behind it
  generalize trimMatches isBlank cs = kept at hcs hhead hlast
  rw [hcs, List.append_assoc]
  refine trimMatches_append hbefore (fun c hc => ?_) hhead hlast
  exact (List.mem_append.1 hc).elim (hafter c) (h c)

/-- Nothing is left exactly of a text that is blank throughout. -/
theorem trim_eq_nil_iff {cs : List Char} : trim cs = [] ↔ ∀ c ∈ cs, isBlank c = true := by
  constructor
  · intro h
    obtain ⟨before, after, hcs, hbefore, hafter, -⟩ := exists_append_trimMatches isBlank cs
    rw [← trim_eq_trimMatches, h, List.append_nil] at hcs
    rw [hcs]
    exact fun c hc => (List.mem_append.1 hc).elim (hbefore c) (hafter c)
  · intro h
    rw [← List.nil_append cs, trim_append_blanks h, trim_nil]

/-- The text neither begins nor ends with a blank. -/
def IsTrimmed (cs : List Char) : Prop :=
  (∀ c ∈ cs.head?, isBlank c = false) ∧ ∀ c ∈ cs.getLast?, isBlank c = false

theorem isTrimmed_iff {cs : List Char} : IsTrimmed cs ↔
    cs.head?.all (!isBlank ·) = true ∧ cs.getLast?.all (!isBlank ·) = true := by
  simp only [IsTrimmed, Option.mem_def, Option.all_eq_true, Bool.not_eq_true']

instance (cs : List Char) : Decidable (IsTrimmed cs) := decidable_of_iff _ isTrimmed_iff.symm

/-- What trimming leaves is trimmed. -/
theorem isTrimmed_trim (cs : List Char) : IsTrimmed (trim cs) := by
  obtain ⟨-, -, -, -, -, hhead, hlast⟩ := exists_append_trimMatches isBlank cs
  exact ⟨hhead, hlast⟩

/-- **Nothing is cut off a text exactly if no blank is at its ends.** -/
theorem trim_eq_self_iff {cs : List Char} : trim cs = cs ↔ IsTrimmed cs := by
  constructor
  · intro h
    rw [← h]
    exact isTrimmed_trim cs
  · rintro ⟨hhead, hlast⟩
    have hcut : trimMatches isBlank ([] ++ cs ++ []) = cs :=
      trimMatches_append nofun nofun hhead hlast
    rwa [List.nil_append, List.append_nil] at hcut

/-- Trimming adds and moves nothing. -/
theorem trim_sublist (cs : List Char) : (trim cs).Sublist cs := by
  obtain ⟨before, after, hcs, -⟩ := exists_append_trimMatches isBlank cs
  rw [trim_eq_trimMatches]
  nth_rewrite 2 [hcs]
  exact (List.sublist_append_right before _).trans (List.sublist_append_left _ after)

end PackageGraph.Text
