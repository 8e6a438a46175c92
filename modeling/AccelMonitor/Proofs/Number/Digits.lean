import AccelMonitor.Number.Written
import AccelMonitor.Text.Digit
import Mathlib.Algebra.Group.Nat.Defs
import Mathlib.Data.List.Basic

/-!
# The Digits of a Number

A number is written in ASCII digits, at least one, and they give the number back.

## Theorems

* `isDigit_of_mem_decimalDigits`, `decimalDigits_ne_nil`: A number is written in digits.
* `digitsValue_decimalDigits`: The digits give the number back.
* `decimalDigits_injective`: So two numbers are written alike only if they are the same.
-/

namespace AccelMonitor

theorem isDigit_of_mem_decimalDigits {n : Nat} {c : Char} (hc : c ∈ decimalDigits n) :
    Text.isDigit c = true := by
  have hdigit := Nat.isDigit_of_mem_toDigits (by omega) (by omega) hc
  simp only [Char.isDigit, Bool.and_eq_true, decide_eq_true_eq] at hdigit
  simp only [Text.isDigit, Bool.and_eq_true, decide_eq_true_eq]
  exact hdigit

theorem decimalDigits_ne_nil (n : Nat) : decimalDigits n ≠ [] :=
  Nat.toDigits_ne_nil

theorem Text.digitsValue_eq_ofDigitChars (s : List Char) :
    Text.digitsValue s = Nat.ofDigitChars 10 s 0 := by
  rw [Text.digitsValue, Nat.ofDigitChars_eq_foldl]
  rfl

/-- The digits of a number give it back. -/
theorem digitsValue_decimalDigits (n : Nat) : Text.digitsValue (decimalDigits n) = n := by
  rw [Text.digitsValue_eq_ofDigitChars]
  exact Nat.ofDigitChars_ten_toDigits

theorem decimalDigits_injective {m n : Nat} (h : decimalDigits m = decimalDigits n) : m = n := by
  rw [← digitsValue_decimalDigits m, h, digitsValue_decimalDigits]

end AccelMonitor
