import AccelMonitor.Number.Powers
import AccelMonitor.Number.Rounding

/-!
# Binary Floating Point

Seconds and percentages, in the arithmetic that their last digit depends on.

The values of the 64-bit binary format that are not negative form one ascending
list: zero, the multiples of the smallest positive value `2 ^ (-1074)` up to the
first power of two with 53 significant bits, then that many values again for
every further power of two, and infinity at the end. A value is therefore stored
as its place in the list, its *rank*, and a sign. Ranks are compared as numbers,
so the order of the format is the order of the integers, and the 64 bits that
represent a value are its rank with the sign in front.

Every finite value is a whole number of units of `2 ^ (-1074)`. Arithmetic takes
that number from both operands, computes the exact result as a quotient, and
goes back to a rank by one rounding, in `Magnitude.nearest`.

## Main definitions

* `Magnitude`: A place in the ascending list of non-negative values.
* `Magnitude.units`: The value at a place, in units of `2 ^ (-1074)`.
* `Magnitude.nearest`: The place nearest to an exact quotient of units.
* `Binary64`: A signed magnitude, or the value that is not a number.
* `Binary64.add`, `sub`, `mul`, `div`: Rounded arithmetic.
* `Binary64.lt`, `Binary64.le`, `Binary64.larger`: The order.

## Theorems

* `units_strictMono`: A higher place holds a larger value.
* `le_trans`, `le_total`: The order on the numbers.
* `larger_left`, `larger_right`: The larger of two numbers is above both.
-/

namespace AccelMonitor

/-- The number of values between two neighbouring powers of two. -/
def binadeSize : Nat :=
  twoTo 52

/-- The place of infinity. -/
def infinityRank : Nat :=
  2047 * twoTo 52

/-- The number of smallest positive values in the number one. -/
def unitsPerOne : Nat :=
  twoTo 1074

/-- A place in the ascending list of the values that are not negative. -/
structure Magnitude where
  /-- The place, counted from zero. -/
  rank : Nat
  /-- Infinity is the last place. -/
  rank_le : rank ≤ infinityRank
deriving DecidableEq

namespace Magnitude

/-- The value zero. -/
def zero : Magnitude :=
  ⟨0, Nat.zero_le _⟩

/-- Infinity. -/
def infinity : Magnitude :=
  ⟨infinityRank, Nat.le_refl _⟩

/-- The magnitude is not infinity. -/
def isFinite (m : Magnitude) : Bool :=
  m.rank < infinityRank

/-- The value at a rank in units of `2 ^ (-1074)`, as if the list went on beyond
    the last finite value. -/
def unitsAt (rank : Nat) : Nat :=
  if rank < binadeSize then rank
  else (binadeSize + rank % binadeSize) * twoTo (rank / binadeSize - 1)

/-- The value of a magnitude in units of `2 ^ (-1074)`. -/
def units (m : Magnitude) : Nat :=
  unitsAt m.rank

/-- The place at a rank; beyond the list, infinity. -/
def ofRank (rank : Nat) : Magnitude :=
  ⟨min rank infinityRank, Nat.min_le_right _ _⟩

/-- The magnitude nearest to `num / den` units. A quotient halfway between two
    neighbours goes to the one of even rank. -/
def nearest (num den : Nat) : Magnitude :=
  -- So many units make a step in the binade of the quotient.
  let shift := Nat.log2 (num / den) - 52
  ofRank (shift * binadeSize + roundHalfEven num (den * twoTo shift))

end Magnitude

/-- A value of the 64-bit binary format. -/
inductive Binary64 where
  /-- A magnitude with a sign. Zero has two signs. -/
  | number (negative : Bool) (magnitude : Magnitude)
  /-- The value that is not a number. -/
  | nan
deriving DecidableEq

namespace Binary64

/-- Zero without a sign. -/
def zero : Binary64 :=
  number false .zero

/-- The value nearest to a natural number. -/
def ofNat (n : Nat) : Binary64 :=
  number false (.nearest (n * unitsPerOne) 1)

/-- The value is a number, perhaps an infinite one. -/
def isNumber : Binary64 → Bool
  | number _ _ => true
  | nan => false

/-- The value is a finite number. -/
def isFinite : Binary64 → Bool
  | number _ m => m.isFinite
  | nan => false

/-- The place of a number in the ascending list of all numbers, the negative ones
    below zero. Both zeros have place zero. -/
def key (negative : Bool) (m : Magnitude) : Int :=
  if negative then -(m.rank : Int) else m.rank

/-- The 64 bits of the value, as a number below `2 ^ 64`. -/
def bits : Binary64 → Nat
  | number negative m => (if negative then twoTo 63 else 0) + m.rank
  | nan => infinityRank + twoTo 51

/-- Both are numbers and the left one is smaller. -/
def lt : Binary64 → Binary64 → Bool
  | number s m, number t n => key s m < key t n
  | _, _ => false

/-- Both are numbers and the left one is not larger. -/
def le : Binary64 → Binary64 → Bool
  | number s m, number t n => key s m ≤ key t n
  | _, _ => false

/-- The larger of two values. A value that is not a number gives way. -/
def larger : Binary64 → Binary64 → Binary64
  | nan, y => y
  | x, nan => x
  | x, y => if lt x y then y else x

/-- The value with the opposite sign. -/
def neg : Binary64 → Binary64
  | number s m => number (!s) m
  | nan => nan

/-- The signed number of units of a finite value. -/
def signedUnits (negative : Bool) (m : Magnitude) : Int :=
  if negative then -(m.units : Int) else m.units

/-- The rounded sum of two numbers. An exact zero is positive unless both
    operands are negative. -/
def addNumbers (s : Bool) (m : Magnitude) (t : Bool) (n : Magnitude) : Binary64 :=
  match m.isFinite, n.isFinite with
  | true, true =>
    let sum := signedUnits s m + signedUnits t n
    -- An exact zero has no sign of its own.
    number (if sum = 0 then s && t else sum < 0) (.nearest sum.natAbs 1)
  | true, false => number t n
  | false, true => number s m
  | false, false => if s = t then number s m else nan

/-- The rounded sum. -/
def add : Binary64 → Binary64 → Binary64
  | number s m, number t n => addNumbers s m t n
  | _, _ => nan

/-- The rounded difference. -/
def sub (x y : Binary64) : Binary64 :=
  add x (neg y)

/-- The rounded product. -/
def mul : Binary64 → Binary64 → Binary64
  | number s m, number t n =>
    if m.isFinite && n.isFinite then
      number (s != t) (.nearest (m.units * n.units) unitsPerOne)
    -- Zero times infinity has no value.
    else if m.units = 0 ∨ n.units = 0 then nan
    else number (s != t) .infinity
  | _, _ => nan

/-- The rounded quotient. -/
def div : Binary64 → Binary64 → Binary64
  | number s m, number t n =>
    match m.isFinite, n.isFinite with
    | true, true =>
      if n.units = 0 then
        if m.units = 0 then nan else number (s != t) .infinity
      else number (s != t) (.nearest (m.units * unitsPerOne) n.units)
    | true, false => number (s != t) .zero
    | false, true => number (s != t) .infinity
    | false, false => nan
  | _, _ => nan

/-- The nearest natural number below `bound`. A half goes upwards, what is
    negative or not a number is zero, and what is too large is the last number
    below the bound. -/
def roundBelow (bound : Nat) : Binary64 → Nat
  | number true _ => 0
  | number false m =>
    if m.isFinite then min (roundHalfUp m.units unitsPerOne) (bound - 1) else bound - 1
  | nan => 0

end Binary64

namespace Magnitude

/-- The value at the next place is larger: inside a binade by one step, and at
    its end because the next binade starts above everything in this one. -/
theorem units_lt_succ (a : Nat) : unitsAt a < unitsAt (a + 1) := by
  have hsize : binadeSize = 4503599627370496 := rfl
  unfold unitsAt
  by_cases h : a + 1 < binadeSize
  · rw [if_pos h, if_pos (by omega)]
    omega
  by_cases h1 : a < binadeSize
  · -- The last of the smallest values, with the first binade above it.
    have ha : a + 1 = binadeSize := by omega
    rw [if_pos h1, if_neg h, ha, Nat.mod_self, Nat.div_self (by omega), Nat.sub_self]
    change a < (binadeSize + 0) * 1
    omega
  rw [if_neg h1, if_neg h]
  by_cases hmod : a % binadeSize + 1 = binadeSize
  · -- The last place of a binade.
    have hq : (a + 1) / binadeSize - 1 = (a / binadeSize - 1) + 1 := by
      rw [hsize] at *
      omega
    have hr : (a + 1) % binadeSize = 0 := by
      rw [hsize] at *
      omega
    rw [hq, hr, twoTo_succ]
    have hpos : 0 < twoTo (a / binadeSize - 1) := twoTo_pos _
    have hlt : (binadeSize + a % binadeSize) * twoTo (a / binadeSize - 1)
        < (2 * binadeSize) * twoTo (a / binadeSize - 1) :=
      Nat.mul_lt_mul_of_pos_right (by omega) hpos
    calc (binadeSize + a % binadeSize) * twoTo (a / binadeSize - 1)
        < (2 * binadeSize) * twoTo (a / binadeSize - 1) := hlt
      _ = (binadeSize + 0) * (twoTo (a / binadeSize - 1) * 2) := by
        rw [Nat.add_zero, Nat.mul_comm 2, Nat.mul_assoc, Nat.mul_comm 2]
  · -- Inside a binade the step is the same on both sides.
    have hq : (a + 1) / binadeSize = a / binadeSize := by
      rw [hsize] at *
      omega
    have hr : (a + 1) % binadeSize = a % binadeSize + 1 := by
      rw [hsize] at *
      omega
    rw [hq, hr]
    exact Nat.mul_lt_mul_of_pos_right (by omega) (twoTo_pos _)

/-- A higher place holds a larger value. -/
theorem units_strictMono {a b : Nat} (h : a < b) : unitsAt a < unitsAt b := by
  induction b with
  | zero => exact absurd h (Nat.not_lt_zero a)
  | succ b ih =>
    rcases Nat.lt_succ_iff_lt_or_eq.mp h with hab | rfl
    · exact Nat.lt_trans (ih hab) (units_lt_succ b)
    · exact units_lt_succ a

end Magnitude

namespace Binary64

/-- The order is transitive. -/
theorem le_trans {x y z : Binary64} (hxy : le x y = true) (hyz : le y z = true) :
    le x z = true := by
  cases x <;> cases y <;> cases z <;> simp only [le, decide_eq_true_eq, Bool.false_eq_true] at *
  exact Int.le_trans hxy hyz

/-- Two numbers are comparable. -/
theorem le_total {x y : Binary64} (hx : x.isNumber = true) (hy : y.isNumber = true) :
    le x y = true ∨ le y x = true := by
  cases x <;> cases y <;> simp only [le, isNumber, decide_eq_true_eq, Bool.false_eq_true] at *
  exact Int.le_total _ _

/-- Which of two numbers is the larger one. -/
theorem larger_number (s t : Bool) (m n : Magnitude) :
    larger (number s m) (number t n)
      = if key s m < key t n then number t n else number s m := by
  simp only [larger, lt, decide_eq_true_eq]

/-- The larger of two numbers is above the left one. -/
theorem larger_left {x y : Binary64} (hx : x.isNumber = true) : le x (larger x y) = true := by
  rcases x with ⟨s, m⟩ | _
  · rcases y with ⟨t, n⟩ | _
    · rw [larger_number]
      split <;> simp only [le, decide_eq_true_eq] <;> omega
    · exact decide_eq_true (Int.le_refl _)
  · exact absurd hx Bool.false_ne_true

/-- The larger of two numbers is above the right one. -/
theorem larger_right {x y : Binary64} (hy : y.isNumber = true) : le y (larger x y) = true := by
  rcases y with ⟨t, n⟩ | _
  · rcases x with ⟨s, m⟩ | _
    · rw [larger_number]
      split <;> simp only [le, decide_eq_true_eq] <;> omega
    · exact decide_eq_true (Int.le_refl _)
  · exact absurd hy Bool.false_ne_true

end Binary64

end AccelMonitor
