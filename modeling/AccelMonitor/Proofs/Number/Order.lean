import AccelMonitor.Number.Reading

/-!
# The Order of Times

Comparing values of the binary format by their places.

The order of the format leaves out the value that is not a number, and it does
not tell the two zeros apart, so it is neither total nor antisymmetric. Both
exceptions disappear on the side of places: every number has a place, an integer,
and comparing numbers is comparing their places. `le_iff` and `lt_iff` go over to
that side, `place_larger` says that the larger of two numbers is the maximum
there, and after that any chain of comparisons is linear arithmetic.

## Main definitions

* `Binary64.place`: The place of a number among all numbers.

## Theorems

* `le_iff`, `lt_iff`: Comparing numbers is comparing places.
* `le_eq_false_iff`: Not below is above.
* `isNumber_larger`, `place_larger`: The larger of two numbers.
-/

namespace AccelMonitor

namespace Binary64

/-- The place of a number among all numbers, the negative ones below zero. -/
def place : Binary64 → Int
  | number s m => key s m
  | nan => 0

variable {x y : Binary64}

/-- Comparing numbers is comparing their places. -/
theorem le_iff (hx : x.isNumber = true) (hy : y.isNumber = true) :
    x.le y = true ↔ x.place ≤ y.place := by
  cases x with
  | nan => exact absurd hx Bool.false_ne_true
  | number s m =>
    cases y with
    | nan => exact absurd hy Bool.false_ne_true
    | number t n => simp only [le, place, decide_eq_true_eq]

/-- Comparing numbers strictly is comparing their places strictly. -/
theorem lt_iff (hx : x.isNumber = true) (hy : y.isNumber = true) :
    x.lt y = true ↔ x.place < y.place := by
  cases x with
  | nan => exact absurd hx Bool.false_ne_true
  | number s m =>
    cases y with
    | nan => exact absurd hy Bool.false_ne_true
    | number t n => simp only [lt, place, decide_eq_true_eq]

/-- A number that is not below another one is above it. -/
theorem le_eq_false_iff (hx : x.isNumber = true) (hy : y.isNumber = true) :
    x.le y = false ↔ y.place < x.place := by
  rw [← Bool.not_eq_true, le_iff hx hy]
  omega

/-- The larger of two numbers is a number. -/
theorem isNumber_larger (hx : x.isNumber = true) (hy : y.isNumber = true) :
    (x.larger y).isNumber = true := by
  cases x with
  | nan => exact absurd hx Bool.false_ne_true
  | number s m =>
    cases y with
    | nan => exact absurd hy Bool.false_ne_true
    | number t n =>
      rw [larger_number]
      split
      · rfl
      · rfl

/-- The place of the larger of two numbers is the larger place. -/
theorem place_larger (hx : x.isNumber = true) (hy : y.isNumber = true) :
    (x.larger y).place = max x.place y.place := by
  cases x with
  | nan => exact absurd hx Bool.false_ne_true
  | number s m =>
    cases y with
    | nan => exact absurd hy Bool.false_ne_true
    | number t n =>
      rw [larger_number]
      by_cases h : key s m < key t n
      · rw [if_pos h]
        simp only [place]
        omega
      · rw [if_neg h]
        simp only [place]
        omega

end Binary64

end AccelMonitor
