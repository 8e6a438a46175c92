/-!
# Rounding a Quotient

The one step at which an exact result becomes a representable one.

Every number this library rounds is a quotient of two natural numbers, taken
exactly: a decimal that was read, a product of two fractions, a value in units
of its last decimal place. `roundHalfEven` rounds such a quotient to the nearest
natural number and a half to the even neighbour, `roundHalfUp` a half upwards.

## Main definitions

* `roundHalfEven`: The nearest natural number, a half to the even neighbour.
* `roundHalfUp`: The nearest natural number, a half upwards.

## Theorems

* `roundHalfEven_near`: The result is within half a unit.
* `roundHalfEven_tie`: A half goes to the even neighbour.
* `roundHalfEven_exact`: A whole quotient is not changed.
-/

namespace AccelMonitor

/-- The natural number nearest to `num / den`; a half goes to the even
    neighbour. -/
def roundHalfEven (num den : Nat) : Nat :=
  if 2 * (num % den) < den ∨ (2 * (num % den) = den ∧ num / den % 2 = 0) then num / den
  else num / den + 1

/-- The natural number nearest to `num / den`; a half goes upwards. -/
def roundHalfUp (num den : Nat) : Nat :=
  (2 * num + den) / (2 * den)

/-- The result is within half a unit of the quotient. -/
theorem roundHalfEven_near (num : Nat) {den : Nat} (h : 0 < den) :
    2 * num ≤ 2 * (roundHalfEven num den * den) + den ∧
      2 * (roundHalfEven num den * den) ≤ 2 * num + den := by
  have hdiv : num / den * den + num % den = num := by
    rw [Nat.mul_comm]
    exact Nat.div_add_mod num den
  have hlt := Nat.mod_lt num h
  rw [roundHalfEven]
  split
  · omega
  · rw [Nat.add_mul, Nat.one_mul]
    omega

/-- A half goes to the even neighbour. -/
theorem roundHalfEven_tie {num den : Nat} (h : 2 * (num % den) = den) :
    roundHalfEven num den % 2 = 0 := by
  rw [roundHalfEven]
  split <;> omega

/-- A whole quotient is not changed. -/
theorem roundHalfEven_exact (n : Nat) {den : Nat} (h : 0 < den) :
    roundHalfEven (n * den) den = n := by
  rw [roundHalfEven, Nat.mul_mod_left, Nat.mul_div_cancel n h, if_pos (Or.inl (by omega))]

end AccelMonitor
