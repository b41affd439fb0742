import Mathlib.Data.List.Basic
import PackageGraph.Text.Basic

/-!
# Decimal digits

A number is read back from its decimal digits (`ofDigits_decimal`), so that different numbers have
different digits (`decimal_injective`). The digits of a number are free of every character that is
none (`not_mem_decimal`), and so is a text that is put together from them and from other marks.

A zero stands in front only if the number is zero (`head?_decimal`).
-/

namespace PackageGraph.Text

/-- A digit is none of the characters that are no digits. -/
theorem ne_of_isDigit {c d : Char} (hc : c.isDigit = true) (hd : d.isDigit = false) : c ≠ d := by
  rintro rfl
  rw [hc] at hd
  cases hd

theorem isDigit_of_mem_decimal {n : Nat} {c : Char} (h : c ∈ decimal n) : c.isDigit = true :=
  Nat.isDigit_of_mem_toDigits (by decide) (by decide) h

/-- The digits of a number hold no other characters. -/
theorem not_mem_decimal {c : Char} (h : c.isDigit = false) (n : Nat) : c ∉ decimal n := fun hc =>
  ne_of_isDigit (isDigit_of_mem_decimal hc) h rfl

theorem decimal_zero : decimal 0 = ['0'] := rfl

/-- The digits of a number begin with zero only if it is zero. -/
theorem head?_decimal {n : Nat} (h : (decimal n).head? = some '0') : n = 0 := by
  induction n using Nat.strongRecOn with
  | ind n ih =>
    rw [decimal, Nat.toDigits_eq_if (by decide)] at h
    split at h
    · -- a single digit
      next hsmall =>
      have hdigit : ∀ n < 10, Nat.digitChar n = '0' → n = 0 := by decide
      exact hdigit n hsmall (by simpa using h)
    · -- more digits, which begin with those of `n / 10`; that is not zero
      next hlarge =>
      rw [List.head?_append_of_ne_nil _ Nat.toDigits_ne_nil] at h
      have hzero : n / 10 = 0 := ih (n / 10) (by omega) h
      omega

/-- **A number is read back from its digits.** -/
theorem ofDigits_decimal (n : Nat) : ofDigits (decimal n) = n := by
  have hfold := Nat.ofDigitChars_toDigits (b := 10) (n := n) (by decide) (by decide)
  rw [Nat.ofDigitChars_eq_foldl] at hfold
  simpa only [ofDigits, decimal, Nat.mul_comm] using hfold

theorem decimal_injective {n m : Nat} (h : decimal n = decimal m) : n = m := by
  rw [← ofDigits_decimal n, h, ofDigits_decimal]

end PackageGraph.Text
