import AccelMonitor.Proofs.Number.Nearest
import Mathlib.Algebra.Order.Field.Rat
import Mathlib.Data.Rat.Cast.Order
import Mathlib.Tactic.FieldSimp
import Mathlib.Tactic.GCongr
import Mathlib.Tactic.Linarith
import Mathlib.Tactic.Positivity
import Mathlib.Tactic.Ring

/-!
# Rounding Errors

What the arithmetic of the format computes, against exact arithmetic.

Every finite number has an exact rational value. A sum is the exact sum of two values
with a relative error of at most `roundoff`, and adding some numbers one after the
other multiplies these errors. `drift` is the bound that comes out: after so many
additions the result is off by at most that part of the sum of the absolute values.
The bound needs no assumption on the signs, and it is small as long as little cancels.

All of this is about numbers far from the largest one. `vast` is where the statements
end. It leaves enough room for any product with a billion to be finite.

## Main definitions

* `Binary64.value`: The exact value of a number.
* `roundoff`: The largest relative error of one rounding.
* `drift`: The bound for the error of some roundings in a row.
* `Binary64.Near`: A computed value and the exact one, with their error.

## Theorems

* `abs_units_nearest_sub`: The error of one rounding.
* `isFinite_of_abs_value`: A number that is not vast is finite.
* `add_value`: The error of a sum.
* `Near.add`, `Near.foldl_add`: The error of some sums in a row.
* `mul_billion_value`: The error of a product with a billion.
* `abs_roundHalfUp_sub`: The error of rounding to a whole number.
-/

namespace AccelMonitor

/-- The largest relative error of one rounding. -/
def roundoff : ℚ :=
  1 / 2 ^ 53

/-- Beyond this value no error is bounded here. -/
@[irreducible]
def vast : ℚ :=
  2 ^ 900

theorem roundoff_pos : 0 < roundoff := by
  unfold roundoff
  positivity

theorem vast_pos : 0 < vast := by
  unfold vast
  positivity

theorem cast_twoTo (n : Nat) : ((twoTo n : Nat) : ℚ) = 2 ^ n := by
  rw [twoTo, Nat.pow_eq, Nat.cast_pow, Nat.cast_ofNat]

theorem unitsPerOne_pos : 0 < unitsPerOne :=
  twoTo_pos 1074

theorem cast_unitsPerOne_pos : (0 : ℚ) < (unitsPerOne : Nat) :=
  Nat.cast_pos.mpr unitsPerOne_pos

/-- A number of units that is not vast, even a billion times, can be rounded. -/
theorem natAbs_lt_of_abs_le {n : Int} (h : |(n : ℚ)| ≤ 10 ^ 9 * vast * (unitsPerOne : Nat)) :
    n.natAbs < twoTo 2097 := by
  have hbillion : (10 : ℚ) ^ 9 ≤ 2 ^ 30 := by norm_num
  have hroom : (10 : ℚ) ^ 9 * vast * (unitsPerOne : Nat) ≤ 2 ^ 2004 := by
    rw [vast, unitsPerOne, cast_twoTo]
    calc (10 : ℚ) ^ 9 * 2 ^ 900 * 2 ^ 1074 ≤ 2 ^ 30 * 2 ^ 900 * 2 ^ 1074 := by gcongr
      _ = 2 ^ 2004 := by rw [← pow_add, ← pow_add]
  have hpow : (2 : ℚ) ^ 2004 < 2 ^ 2097 := pow_lt_pow_right₀ (by norm_num) (by norm_num)
  have hlt : ((n.natAbs : Nat) : ℚ) < ((twoTo 2097 : Nat) : ℚ) := by
    rw [cast_twoTo, Nat.cast_natAbs, Int.cast_abs]
    exact lt_of_le_of_lt (h.trans hroom) hpow
  exact Nat.cast_lt.mp hlt

/-- The error of one rounding. -/
theorem abs_units_nearest_sub {a : Nat} (ha : a < twoTo 2097) :
    |((Magnitude.nearest a 1).units : ℚ) - a| ≤ roundoff * a := by
  rcases Magnitude.units_nearest ha with ⟨_, hupper, hlower⟩
  have habove : ((twoTo 53 * (Magnitude.nearest a 1).units : Nat) : ℚ)
      ≤ ((twoTo 53 * a + a : Nat) : ℚ) := Nat.cast_le.mpr hupper
  have hbelow : ((twoTo 53 * a : Nat) : ℚ)
      ≤ ((twoTo 53 * (Magnitude.nearest a 1).units + a : Nat) : ℚ) := Nat.cast_le.mpr hlower
  rw [Nat.cast_add, Nat.cast_mul, Nat.cast_mul, cast_twoTo] at habove hbelow
  rw [roundoff, abs_le]
  constructor
  · linarith
  · linarith

/-- The error of rounding an exact number of units, whichever sign a zero has. Additions and
    products both come to this: the exact result is a whole number of units with a sign, and
    what is kept is the nearest magnitude with that sign. -/
theorem abs_signedUnits_nearest_sub {n : Int} {s : Bool} (hs : n ≠ 0 → s = decide (n < 0))
    (hn : n.natAbs < twoTo 2097) :
    |(Binary64.signedUnits s (Magnitude.nearest n.natAbs 1) : ℚ) - n| ≤ roundoff * |(n : ℚ)| := by
  have hround := abs_units_nearest_sub hn
  have habs : ((n.natAbs : Nat) : ℚ) = |(n : ℚ)| := by
    rw [Nat.cast_natAbs, Int.cast_abs]
  -- The rounding is one of the absolute value, and the sign comes on top.
  rw [habs] at hround
  by_cases hzero : n = 0
  · -- Both zeros are exact.
    subst hzero
    rw [Int.cast_zero, abs_zero, mul_zero, sub_zero] at hround ⊢
    have hunits := abs_nonpos_iff.mp hround
    rw [Binary64.signedUnits]
    split
    · rw [Int.cast_neg, Int.cast_natCast, hunits, neg_zero, abs_zero]
    · rw [Int.cast_natCast, hunits, abs_zero]
  · rw [hs hzero]
    by_cases hneg : n < 0
    · have hcast : (n : ℚ) < 0 := Int.cast_lt_zero.mpr hneg
      rw [decide_eq_true hneg, Binary64.signedUnits, if_pos rfl, Int.cast_neg, Int.cast_natCast]
      rw [abs_of_neg hcast, ← abs_neg] at hround
      rw [abs_of_neg hcast]
      refine le_of_eq_of_le (congrArg abs ?_) hround
      ring
    · have hcast : (0 : ℚ) ≤ n := Int.cast_nonneg (not_lt.mp hneg)
      rw [decide_eq_false hneg, Binary64.signedUnits, if_neg Bool.false_ne_true, Int.cast_natCast]
      rw [abs_of_nonneg hcast] at hround ⊢
      exact hround

namespace Binary64

/-- The exact value of a number. -/
def value : Binary64 → ℚ
  | number s m => signedUnits s m / (unitsPerOne : Nat)
  | nan => 0

theorem value_zero : zero.value = 0 := by
  rw [zero, value, signedUnits, if_neg Bool.false_ne_true]
  have hunits : Magnitude.zero.units = 0 := rfl
  rw [hunits, Int.natCast_zero, Int.cast_zero, zero_div]

/-- The value of infinity, if it had one, is vast. -/
theorem vast_le_infinity : vast ≤ (Magnitude.infinity.units : ℚ) / (unitsPerOne : Nat) := by
  have hunits : Magnitude.infinity.units = twoTo 2098 := by
    decide +kernel
  rw [hunits, le_div_iff₀ cast_unitsPerOne_pos, vast, unitsPerOne, cast_twoTo, cast_twoTo,
    ← pow_add]
  exact pow_le_pow_right₀ (by norm_num) (by norm_num)

theorem abs_value (s : Bool) (m : Magnitude) :
    |(number s m).value| = (m.units : ℚ) / (unitsPerOne : Nat) := by
  have hunits : |(signedUnits s m : ℚ)| = m.units := by
    rw [signedUnits]
    split
    · rw [Int.cast_neg, abs_neg, Int.cast_natCast, Nat.abs_cast]
    · rw [Int.cast_natCast, Nat.abs_cast]
  rw [value, abs_div, hunits, abs_of_pos cast_unitsPerOne_pos]

/-- A number whose value is not vast is finite. -/
theorem isFinite_of_abs_value {x : Binary64} (hx : x.isNumber = true) (h : |x.value| < vast) :
    x.isFinite = true := by
  cases x with
  | nan => cases hx
  | number s m =>
    rw [isFinite, Magnitude.isFinite, decide_eq_true_eq]
    refine lt_of_le_of_ne m.rank_le fun hrank => ?_
    have hm : m.units = Magnitude.infinity.units := congrArg Magnitude.unitsAt hrank
    rw [abs_value, hm] at h
    exact absurd vast_le_infinity (not_le.mpr h)

/-- The error of a sum that is not vast. Adding is exact in units and rounds once. The bound is
    relative to the exact sum, not to the summands, so numbers that cancel leave no error
    behind. -/
theorem add_value {x y : Binary64} (hx : x.isFinite = true) (hy : y.isFinite = true)
    (h : |x.value + y.value| ≤ vast) :
    (x.add y).isFinite = true ∧
      |(x.add y).value - (x.value + y.value)| ≤ roundoff * |x.value + y.value| := by
  cases x with
  | nan => cases hx
  | number s m =>
    cases y with
    | nan => cases hy
    | number t n =>
      have hm : m.isFinite = true := hx
      have hn : n.isFinite = true := hy
      have hpos := cast_unitsPerOne_pos
      -- The exact sum is a whole number of units.
      have hsum : (number s m).value + (number t n).value
          = ((signedUnits s m + signedUnits t n : Int) : ℚ) / (unitsPerOne : Nat) := by
        rw [value, value, Int.cast_add, add_div]
      rw [hsum] at h ⊢
      simp only [add, addNumbers, hm, hn]
      generalize signedUnits s m + signedUnits t n = sum at h ⊢
      -- Below the largest number there is room for the units of the sum, with much to spare.
      have hroom : |(sum : ℚ)| ≤ 10 ^ 9 * vast * (unitsPerOne : Nat) := by
        rw [abs_div, abs_of_pos hpos, div_le_iff₀ hpos] at h
        have hvast : vast * (unitsPerOne : Nat) ≤ 10 ^ 9 * (vast * (unitsPerOne : Nat)) := by
          have hnonneg := mul_pos vast_pos hpos
          linarith
        linarith
      have hsmall := natAbs_lt_of_abs_le hroom
      refine ⟨(Magnitude.units_nearest hsmall).1, ?_⟩
      -- Only a sum of zero takes its sign from the summands.
      have hsign : sum ≠ 0 → (if sum = 0 then s && t else decide (sum < 0)) = decide (sum < 0) :=
        fun hne => if_neg hne
      have herror := abs_signedUnits_nearest_sub hsign hsmall
      rw [value, ← sub_div, abs_div, abs_div, abs_of_pos hpos, ← mul_div_assoc]
      exact div_le_div_of_nonneg_right herror hpos.le

end Binary64

/-- The bound for the error of `n` roundings in a row of sums whose summands have `size`
    altogether. -/
def drift (n : Nat) (size : ℚ) : ℚ :=
  ((1 + roundoff) ^ n - 1) * size

theorem one_le_growth (n : Nat) : 1 ≤ (1 + roundoff) ^ n :=
  one_le_pow₀ (by linarith [roundoff_pos])

theorem drift_nonneg (n : Nat) {size : ℚ} (h : 0 ≤ size) : 0 ≤ drift n size :=
  mul_nonneg (by linarith [one_le_growth n]) h

theorem drift_mono {m n : Nat} (h : m ≤ n) {size : ℚ} (hs : 0 ≤ size) :
    drift m size ≤ drift n size := by
  have hgrowth : (1 + roundoff) ^ m ≤ (1 + roundoff) ^ n :=
    pow_le_pow_right₀ (by linarith [roundoff_pos]) h
  exact mul_le_mul_of_nonneg_right (by linarith) hs

/-- One more rounding of a sum that had some error already. -/
theorem drift_succ (n : Nat) (size : ℚ) :
    drift (n + 1) size = roundoff * ((1 + roundoff) ^ n * size) + drift n size := by
  rw [drift, drift, pow_succ]
  ring

namespace Binary64

/-- A computed value is finite and differs from the exact sum of some values by no more than the
    roundings made so far explain. The error is measured against the sum of the absolute values,
    as the sum itself may cancel. -/
structure Near (n : Nat) (sum size : ℚ) (x : Binary64) : Prop where
  finite : x.isFinite = true
  within : |x.value - sum| ≤ drift n size
  size_le : |sum| ≤ size

namespace Near

variable {n : Nat} {sum size : ℚ} {x : Binary64}

theorem zero : Near 0 0 0 Binary64.zero where
  finite := by decide
  within := by
    rw [value_zero, sub_zero, abs_zero]
    exact drift_nonneg 0 le_rfl
  size_le := by
    rw [abs_zero]

theorem size_nonneg (h : Near n sum size x) : 0 ≤ size :=
  (abs_nonneg sum).trans h.size_le

/-- How large the computed value can be. -/
theorem abs_value_le (h : Near n sum size x) : |x.value| ≤ (1 + roundoff) ^ n * size := by
  have htriangle : |x.value| ≤ |x.value - sum| + |sum| := by
    have hadd := abs_add_le (x.value - sum) sum
    rw [sub_add_cancel] at hadd
    exact hadd
  have hwithin := h.within
  have hsize := h.size_le
  rw [drift] at hwithin
  linarith

/-- One more number is added. The new error is in proportion to the computed sum, which can
    itself exceed the exact one, and this is why the factor grows as a power instead of a
    multiple. -/
theorem add (h : Near n sum size x) {t : Binary64} (ht : t.isFinite = true)
    (hroom : (1 + roundoff) ^ n * (size + |t.value|) ≤ vast) :
    Near (n + 1) (sum + t.value) (size + |t.value|) (x.add t) := by
  -- What is rounded is the sum with the computed value, which can exceed the exact one.
  have hexact : |x.value + t.value| ≤ (1 + roundoff) ^ n * (size + |t.value|) := by
    have hsum := (abs_add_le x.value t.value).trans (add_le_add_left h.abs_value_le _)
    have hgrowth : |t.value| ≤ (1 + roundoff) ^ n * |t.value| :=
      le_mul_of_one_le_left (abs_nonneg _) (one_le_growth n)
    rw [mul_add]
    linarith
  rcases add_value h.finite ht (hexact.trans hroom) with ⟨hfinite, herror⟩
  refine ⟨hfinite, ?_, ?_⟩
  · -- The new rounding error, and the old error carried along.
    have hnew : |(x.add t).value - (x.value + t.value)|
        ≤ roundoff * ((1 + roundoff) ^ n * (size + |t.value|)) :=
      herror.trans (mul_le_mul_of_nonneg_left hexact roundoff_pos.le)
    have hold : |x.value - sum| ≤ drift n (size + |t.value|) := by
      refine h.within.trans ?_
      rw [drift, drift]
      refine mul_le_mul_of_nonneg_left ?_ (by linarith [one_le_growth n])
      linarith [abs_nonneg t.value]
    have htriangle := abs_add_le ((x.add t).value - (x.value + t.value)) (x.value - sum)
    rw [drift_succ]
    calc |(x.add t).value - (sum + t.value)|
        = |(x.add t).value - (x.value + t.value) + (x.value - sum)| := by
          congr 1
          ring
      _ ≤ _ := htriangle.trans (add_le_add hnew hold)
  · exact (abs_add_le _ _).trans (add_le_add_left h.size_le _)

/-- Some more numbers are added, one after the other, so that no partial sum gets near the
    largest number. The room is asked for the whole sum of absolute values, which bounds every
    partial one. -/
theorem foldl_add {ts : List Binary64} (h : Near n sum size x)
    (hts : ∀ t ∈ ts, t.isNumber = true)
    (hroom : (1 + roundoff) ^ (n + ts.length) * (size + (ts.map fun t => |t.value|).sum) < vast) :
    Near (n + ts.length) (sum + (ts.map value).sum) (size + (ts.map fun t => |t.value|).sum)
      (ts.foldl Binary64.add x) := by
  induction ts generalizing n sum size x with
  | nil =>
    simp only [List.map_nil, List.sum_nil, add_zero, List.length_nil, List.foldl_nil]
    exact h
  | cons t ts ih =>
    simp only [List.map_cons, List.sum_cons, List.length_cons, List.foldl_cons] at hroom ⊢
    have hrest : 0 ≤ (ts.map fun t => |t.value|).sum := by
      refine List.sum_nonneg fun q hq => ?_
      rcases List.mem_map.mp hq with ⟨t, _, rfl⟩
      exact abs_nonneg _
    have hsize := h.size_nonneg
    have ht := abs_nonneg t.value
    -- What is left to add only makes the bound larger.
    have hpart : (1 + roundoff) ^ n * (size + |t.value|)
        ≤ (1 + roundoff) ^ (n + (ts.length + 1))
          * (size + (|t.value| + (ts.map fun t => |t.value|).sum)) := by
      refine mul_le_mul ?_ (by linarith) (by linarith)
        (by linarith [one_le_growth (n + (ts.length + 1))])
      exact pow_le_pow_right₀ (by linarith [roundoff_pos]) (Nat.le_add_right ..)
    have hsmall : |t.value| < vast := by
      have hgrowth := le_mul_of_one_le_left (add_nonneg hsize ht) (one_le_growth n)
      linarith
    have hfinite := isFinite_of_abs_value (hts t (List.mem_cons_self ..)) hsmall
    have hnext := h.add hfinite (hpart.trans hroom.le)
    rw [Nat.add_comm ts.length 1, ← Nat.add_assoc, ← add_assoc size] at hroom ⊢
    rw [← add_assoc sum]
    exact ih hnext (fun u hu => hts u (List.mem_cons_of_mem t hu)) hroom

end Near

/-- A billion has no error. -/
theorem ofNat_billion : ∃ m : Magnitude, ofNat 1000000000 = number false m ∧
    m.isFinite = true ∧ m.units = 1000000000 * unitsPerOne :=
  ⟨.nearest (1000000000 * unitsPerOne) 1, rfl, by decide +kernel, by decide +kernel⟩

theorem natAbs_signedUnits_mul (s : Bool) (m : Magnitude) (k : Nat) :
    (signedUnits s m * k).natAbs = m.units * k := by
  rw [signedUnits, Int.natAbs_mul, Int.natAbs_natCast]
  split
  · rw [Int.natAbs_neg, Int.natAbs_natCast]
  · rw [Int.natAbs_natCast]

/-- A product with a natural number keeps the sign, unless it is zero. -/
theorem sign_signedUnits_mul {s : Bool} {m : Magnitude} {k : Nat}
    (h : signedUnits s m * k ≠ 0) : s = decide (signedUnits s m * k < 0) := by
  have hpos : 0 < m.units * k := by
    rw [← natAbs_signedUnits_mul s]
    exact Int.natAbs_pos.mpr h
  have hcast : (0 : Int) < m.units * k := by
    exact_mod_cast hpos
  -- The units are positive, so the sign of the product is that of the factor.
  cases s with
  | true =>
    rw [signedUnits, if_pos rfl, Int.neg_mul]
    exact (decide_eq_true (by omega)).symm
  | false =>
    rw [signedUnits, if_neg Bool.false_ne_true]
    exact (decide_eq_false (by omega)).symm

/-- The error of a product with a billion. Both factors are whole numbers of units, and a
    billion is so many whole ones, so one of the two scales is taken out again and what is
    rounded is exact. -/
theorem mul_billion_value {s : Bool} {m : Magnitude} (hm : m.isFinite = true)
    (h : |(number s m).value| ≤ vast) :
    ∃ n : Magnitude, (number s m).mul (ofNat 1000000000) = number s n ∧ n.isFinite = true ∧
      |(number s n).value - 10 ^ 9 * (number s m).value|
        ≤ roundoff * |10 ^ 9 * (number s m).value| := by
  -- A billion is a whole number of units itself.
  rcases ofNat_billion with ⟨b, hb, hfinite, hunits⟩
  have hpos := cast_unitsPerOne_pos
  have hproduct : m.units * b.units = m.units * 1000000000 * unitsPerOne := by
    rw [hunits, Nat.mul_assoc]
  -- The exact product is a whole number of units.
  have hexact : 10 ^ 9 * (number s m).value
      = ((signedUnits s m * (1000000000 : Nat) : Int) : ℚ) / (unitsPerOne : Nat) := by
    rw [value]
    push_cast
    ring
  have hroom : |((signedUnits s m * (1000000000 : Nat) : Int) : ℚ)|
      ≤ 10 ^ 9 * vast * (unitsPerOne : Nat) := by
    have hscaled : |10 ^ 9 * (number s m).value| ≤ 10 ^ 9 * vast := by
      rw [abs_mul, abs_of_pos (by norm_num : (0 : ℚ) < 10 ^ 9)]
      exact mul_le_mul_of_nonneg_left h (by norm_num)
    rw [hexact, abs_div, abs_of_pos hpos, div_le_iff₀ hpos] at hscaled
    exact hscaled
  have hsmall := natAbs_lt_of_abs_le hroom
  have herror := abs_signedUnits_nearest_sub (sign_signedUnits_mul (m := m)) hsmall
  rw [natAbs_signedUnits_mul] at hsmall herror
  refine ⟨.nearest (m.units * 1000000000) 1, ?_, (Magnitude.units_nearest hsmall).1, ?_⟩
  · rw [hb, mul, hm, hfinite, Bool.and_self, if_pos rfl, hproduct,
      Magnitude.nearest_scaled _ unitsPerOne_pos, Bool.bne_false]
  · rw [hexact, value, ← sub_div, abs_div, abs_div, abs_of_pos hpos, ← mul_div_assoc]
    exact div_le_div_of_nonneg_right herror hpos.le

/-- The natural number nearest to a value, however large, and zero for negative values. -/
def rounded : Binary64 → Nat
  | number false m => roundHalfUp m.units unitsPerOne
  | _ => 0

theorem roundBelow_eq {x : Binary64} (hx : x.isFinite = true) (bound : Nat) :
    x.roundBelow bound = min x.rounded (bound - 1) := by
  cases x with
  | nan => cases hx
  | number s m =>
    have hm : m.isFinite = true := hx
    cases s with
    | true => exact (Nat.zero_min _).symm
    | false => rw [roundBelow, hm, if_pos rfl, rounded]

end Binary64

/-- The error of rounding a quotient to a whole number is half a unit at most. -/
theorem abs_roundHalfUp_sub (num : Nat) {den : Nat} (hden : 0 < den) :
    |((roundHalfUp num den : Nat) : ℚ) - num / den| ≤ 1 / 2 := by
  have hpos : (0 : ℚ) < den := Nat.cast_pos.mpr hden
  -- Rounding up at one half is taking the floor of twice the quotient and one, halved.
  have hlower : roundHalfUp num den * (2 * den) ≤ 2 * num + den := Nat.div_mul_le_self ..
  have hupper : 2 * num + den < (roundHalfUp num den + 1) * (2 * den) := by
    rw [roundHalfUp, Nat.mul_comm _ (2 * den)]
    exact Nat.lt_mul_div_succ _ (by omega)
  have hlower' : ((roundHalfUp num den * (2 * den) : Nat) : ℚ) ≤ ((2 * num + den : Nat) : ℚ) :=
    Nat.cast_le.mpr hlower
  have hupper' : ((2 * num + den : Nat) : ℚ)
      < (((roundHalfUp num den + 1) * (2 * den) : Nat) : ℚ) :=
    Nat.cast_lt.mpr hupper
  push_cast at hlower' hupper'
  have hexact : (num : ℚ) = num / den * den := (div_mul_cancel₀ _ hpos.ne').symm
  -- Both bounds are now bounds of the quotient, times the denominator.
  generalize (num : ℚ) / den = q at hexact ⊢
  rw [hexact] at hlower' hupper'
  rw [abs_le]
  constructor
  · nlinarith
  · nlinarith

end AccelMonitor
