import AccelMonitor.Proofs.Number.Error

/-!
# Errors of Products and Quotients

What products and quotients of the format are, against exact arithmetic.

A rounding multiplies the exact value by a factor near one. `growth` is large enough to
bound such a factor and its inverse, so that a division by a rounded value costs no more
than a multiplication. After some roundings the computed value and the exact one differ at
most by a power of it, in either direction.

Zero is exact, and everything else has to stay away from both ends of the range. How far
away an exact value is, is counted in powers of two, and such counts are added in products
and quotients like the exponents.

## Main definitions

* `growth`: The largest factor of one rounding.
* `Sized`: A value is zero or not too small and not too large.
* `Binary64.Close`: A computed value and the exact one, up to some factors.

## Theorems

* `abs_quotient_nearest_sub`: The error of rounding a quotient.
* `close_nearest`: The same for the value.
* `Close.ofNat`, `Close.mul`, `Close.div`: Numbers, products and quotients.
* `Close.abs_sub_le`: The error, as a part of the exact value.
-/

namespace AccelMonitor

/-- The largest factor of one rounding, or of undoing it. -/
def growth : ℚ :=
  1 + 2 * roundoff

theorem growth_pos : 0 < growth := by
  rw [growth]
  linarith [roundoff_pos]

theorem one_le_growth_pow (k : Nat) : 1 ≤ growth ^ k := by
  refine one_le_pow₀ ?_
  rw [growth]
  linarith [roundoff_pos]

theorem growth_pow_le (k : Nat) : growth ^ k ≤ 2 ^ k := by
  have hgrowth : growth ≤ 2 := by
    rw [growth, roundoff]
    norm_num
  exact pow_le_pow_left₀ growth_pos.le hgrowth k

/-- The value is zero or has a size between two powers of two. -/
def Sized (n : Nat) (q : ℚ) : Prop :=
  q = 0 ∨ (1 ≤ q * 2 ^ n ∧ q ≤ 2 ^ n)

namespace Sized

variable {m n : Nat} {q r : ℚ}

theorem pos_of_one_le (h : 1 ≤ q * 2 ^ n) : 0 < q :=
  pos_of_mul_pos_left (lt_of_lt_of_le one_pos h) (by positivity)

theorem nonneg (h : Sized n q) : 0 ≤ q := by
  rcases h with rfl | ⟨hlow, _⟩
  · exact le_rfl
  · exact (pos_of_one_le hlow).le

theorem mul (hq : Sized n q) (hr : Sized m r) : Sized (n + m) (q * r) := by
  rcases hq with rfl | ⟨hqlow, hqhigh⟩
  · exact Or.inl (zero_mul r)
  rcases hr with rfl | ⟨hrlow, hrhigh⟩
  · exact Or.inl (mul_zero q)
  refine Or.inr ⟨?_, ?_⟩
  · calc 1 ≤ q * 2 ^ n * (r * 2 ^ m) := one_le_mul_of_one_le_of_one_le hqlow hrlow
      _ = q * r * 2 ^ (n + m) := by ring
  · rw [pow_add]
    have hr := (pos_of_one_le hrlow).le
    gcongr

theorem inv (hq : Sized n q) : Sized n q⁻¹ := by
  rcases hq with rfl | ⟨hlow, hhigh⟩
  · exact Or.inl inv_zero
  · have hpos := pos_of_one_le hlow
    refine Or.inr ⟨?_, ?_⟩
    · rw [inv_mul_eq_div, one_le_div hpos]
      exact hhigh
    · rw [inv_le_iff_one_le_mul₀ hpos, mul_comm]
      exact hlow

theorem div (hq : Sized n q) (hr : Sized m r) : Sized (n + m) (q / r) := by
  rw [div_eq_mul_inv]
  exact hq.mul hr.inv

theorem mono (hq : Sized n q) (h : n ≤ m) : Sized m q := by
  have hpow : (2 : ℚ) ^ n ≤ 2 ^ m := pow_le_pow_right₀ one_le_two h
  have hnonneg := hq.nonneg
  refine hq.imp id fun hsize => ⟨?_, hsize.2.trans hpow⟩
  exact hsize.1.trans (mul_le_mul_of_nonneg_left hpow hnonneg)

/-- A natural number is not too small. -/
theorem natCast {a : Nat} (h : a < 2 ^ n) : Sized n a := by
  have hhigh : (a : ℚ) ≤ 2 ^ n := by
    exact_mod_cast h.le
  rcases Nat.eq_zero_or_pos a with rfl | hpos
  · exact Or.inl Nat.cast_zero
  · have hone : (1 : ℚ) ≤ a := by
      exact_mod_cast hpos
    exact Or.inr ⟨one_le_mul_of_one_le_of_one_le hone (one_le_pow₀ one_le_two), hhigh⟩

end Sized

/-- The error of rounding a quotient of units. The step is a part of the quotient as long as
    that is not below the first full binade. Below it the step stays one unit, and nothing
    relative can be said, so the hypotheses keep the quotient out of there. -/
theorem abs_quotient_nearest_sub {num den : Nat} (hden : 0 < den) (hhigh : num < twoTo 2097 * den)
    (hlow : num = 0 ∨ binadeSize * den ≤ num) :
    |((Magnitude.nearest num den).units : ℚ) - num / den| ≤ roundoff * (num / den) := by
  have hpos : (0 : ℚ) < den := Nat.cast_pos.mpr hden
  rcases Magnitude.quotient_nearest hden hhigh with ⟨_, step, hlower, hupper, hstep⟩
  have hsize : (binadeSize : ℚ) = 2 ^ 52 := cast_twoTo 52
  generalize (Magnitude.nearest num den).units = units at hlower hupper ⊢
  -- In units of the denominator, the error is at most a part of the numerator.
  have herror : |((units * den : Nat) : ℚ) - num| ≤ roundoff * num := by
    -- Zero is rounded to zero, and anything else is at least a full binade.
    rcases hlow with rfl | hlow
    · have hunits : units * den = 0 := by
        rcases hstep with rfl | hstep
        · rcases Nat.eq_zero_or_pos units with rfl | hunits
          · exact Nat.zero_mul den
          · have hmul : 1 * den ≤ units * den := Nat.mul_le_mul_right den hunits
            omega
        · have hzero : den * step = 0 := by
            rcases Nat.mul_eq_zero.mp (Nat.le_zero.mp hstep) with hbinade | hzero
            · exact absurd hbinade (Nat.pos_iff_ne_zero.mp (twoTo_pos 52))
            · exact hzero
          omega
      rw [hunits]
      rw [Nat.cast_zero, sub_self, abs_zero, mul_zero]
    · have hsmall : binadeSize * (den * step) ≤ num := by
        rcases hstep with rfl | hstep
        · rw [Nat.mul_one]
          exact hlow
        · exact hstep
      have hsmall' : (2 : ℚ) ^ 52 * (den * step) ≤ num := by
        rw [← hsize]
        exact_mod_cast hsmall
      have hlower' : (2 : ℚ) * num ≤ 2 * ((units * den : Nat) : ℚ) + den * step := by
        exact_mod_cast hlower
      have hupper' : (2 : ℚ) * ((units * den : Nat) : ℚ) ≤ 2 * num + den * step := by
        exact_mod_cast hupper
      rw [roundoff, abs_le]
      constructor
      · linarith
      · linarith
  -- Divided by the denominator, this is the error of the quotient.
  have hquotient : (units : ℚ) - num / den = (((units * den : Nat) : ℚ) - num) / den := by
    rw [Nat.cast_mul, sub_div, mul_div_cancel_right₀ _ hpos.ne']
  rw [hquotient, abs_div, abs_of_pos hpos, ← mul_div_assoc]
  exact div_le_div_of_nonneg_right herror hpos.le

namespace Binary64

theorem value_number (m : Magnitude) :
    (number false m).value = (m.units : ℚ) / (unitsPerOne : Nat) := by
  rw [value, signedUnits, if_neg Bool.false_ne_true, Int.cast_natCast]

/-- A quotient of units whose value is far from both ends of the range can be rounded. -/
theorem units_range {num den : Nat} (hden : 0 < den)
    (hrange : Sized 900 ((num : ℚ) / den / (unitsPerOne : Nat))) :
    num < twoTo 2097 * den ∧ (num = 0 ∨ binadeSize * den ≤ num) := by
  have hpos : (0 : ℚ) < den := Nat.cast_pos.mpr hden
  have hunits : ((unitsPerOne : Nat) : ℚ) = 2 ^ 1074 := cast_twoTo 1074
  have hnum : (num : ℚ) = (num : ℚ) / den / 2 ^ 1074 * 2 ^ 1074 * den := by
    rw [div_mul_cancel₀ _ (by positivity), div_mul_cancel₀ _ hpos.ne']
  rw [hunits] at hrange
  generalize (num : ℚ) / den / 2 ^ 1074 = e at hnum hrange
  rcases hrange with rfl | ⟨hlow, hhigh⟩
  · rw [zero_mul, zero_mul, Nat.cast_eq_zero] at hnum
    rw [hnum]
    exact ⟨Nat.mul_pos (twoTo_pos 2097) hden, Or.inl rfl⟩
  -- The exponents leave room on both sides.
  · have habove : (num : ℚ) < ((twoTo 2097 * den : Nat) : ℚ) := by
      have hpow : (2 : ℚ) ^ 900 * 2 ^ 1074 < 2 ^ 2097 := by
        rw [← pow_add]
        exact pow_lt_pow_right₀ one_lt_two (by decide)
      rw [Nat.cast_mul, cast_twoTo, hnum]
      exact mul_lt_mul_of_pos_right (lt_of_le_of_lt (by gcongr) hpow) hpos
    have hbelow : ((binadeSize * den : Nat) : ℚ) ≤ num := by
      have hpow : (2 : ℚ) ^ 52 ≤ e * 2 ^ 1074 := by
        calc (2 : ℚ) ^ 52 ≤ 1 * 2 ^ 174 := by
              rw [one_mul]
              exact pow_le_pow_right₀ one_le_two (by decide)
          _ ≤ e * 2 ^ 900 * 2 ^ 174 := by gcongr
          _ = e * 2 ^ 1074 := by rw [mul_assoc, ← pow_add]
      rw [Nat.cast_mul, binadeSize, cast_twoTo, hnum]
      exact mul_le_mul_of_nonneg_right hpow hpos.le
    exact ⟨Nat.cast_lt.mp habove, Or.inr (Nat.cast_le.mp hbelow)⟩

/-- The value nearest to a quotient of units, as a bound of each of the two by the other. The
    factor is the same in both directions, and a little larger than the rounding asks for, so
    that bounds of several operations multiply. -/
theorem close_nearest {num den : Nat} (hden : 0 < den) {e : ℚ}
    (he : (num : ℚ) / den / (unitsPerOne : Nat) = e) (hrange : Sized 900 e) :
    (Magnitude.nearest num den).isFinite = true ∧
      (number false (Magnitude.nearest num den)).value ≤ e * growth ∧
      e ≤ (number false (Magnitude.nearest num den)).value * growth := by
  have hunit := cast_unitsPerOne_pos
  rcases units_range hden (he ▸ hrange) with ⟨hhigh, hlow⟩
  have herror := abs_quotient_nearest_sub hden hhigh hlow
  -- The same error for the values, which are so many units each.
  have hvalue : |(number false (Magnitude.nearest num den)).value - e| ≤ roundoff * e := by
    rw [value_number, ← he, ← sub_div, abs_div, abs_of_pos hunit, ← mul_div_assoc]
    exact div_le_div_of_nonneg_right herror hunit.le
  refine ⟨(Magnitude.quotient_nearest hden hhigh).1, ?_⟩
  generalize (number false (Magnitude.nearest num den)).value = v at hvalue ⊢
  have hnonneg := hrange.nonneg
  rw [abs_le] at hvalue
  rw [growth]
  constructor
  · have hmul := mul_nonneg hnonneg roundoff_pos.le
    linarith
  · -- The factor undoes a rounding down as well.
    have hinverse : 1 ≤ (1 - roundoff) * (1 + 2 * roundoff) := by
      rw [roundoff]
      norm_num
    have hfactor : 0 ≤ 1 + 2 * roundoff := growth_pos.le
    calc e ≤ e * ((1 - roundoff) * (1 + 2 * roundoff)) := le_mul_of_one_le_right hnonneg hinverse
      _ = (e - roundoff * e) * (1 + 2 * roundoff) := by ring
      _ ≤ v * (1 + 2 * roundoff) := mul_le_mul_of_nonneg_right (by linarith) hfactor

/-- A computed value without a sign, finite and up to `k` factors the exact one. The exponents
    of both bound how large and how small the exact value is, so that a chain of operations
    stays inside the range. -/
structure Close (k n : Nat) (q : ℚ) (x : Binary64) : Prop where
  unsigned : ∃ m, x = number false m ∧ m.isFinite = true
  upper : x.value ≤ q * growth ^ k
  lower : q ≤ x.value * growth ^ k
  range : Sized n q

namespace Close

variable {k l m n : Nat} {q r : ℚ} {x y : Binary64}

theorem isFinite (h : Close k n q x) : x.isFinite = true := by
  rcases h.unsigned with ⟨_, rfl, hfinite⟩
  exact hfinite

/-- The computed value is not at the ends of the range either. It differs from the exact one by
    factors near one, so for each operation that was done one more power of two is allowed. -/
theorem sized_value (h : Close k n q x) : Sized (n + k) x.value := by
  have hone := one_le_growth_pow k
  have hpow := growth_pow_le k
  have hupper := h.upper
  have hlower := h.lower
  rcases h.range with rfl | ⟨hlow, hhigh⟩
  · -- Zero is exact.
    rw [zero_mul] at hupper
    have hnonneg : 0 ≤ x.value := nonneg_of_mul_nonneg_left hlower (by linarith)
    exact Or.inl (le_antisymm hupper hnonneg)
  · have hq := Sized.pos_of_one_le hlow
    have hx : 0 < x.value := pos_of_mul_pos_left (lt_of_lt_of_le hq hlower) (by linarith)
    refine Or.inr ⟨?_, ?_⟩
    · calc 1 ≤ q * 2 ^ n := hlow
        _ ≤ x.value * growth ^ k * 2 ^ n := by gcongr
        _ ≤ x.value * 2 ^ k * 2 ^ n := by gcongr
        _ = x.value * 2 ^ (n + k) := by ring
    · calc x.value ≤ q * growth ^ k := hupper
        _ ≤ 2 ^ n * 2 ^ k := by gcongr
        _ = 2 ^ (n + k) := by ring

theorem ofNat {a : Nat} (ha : a < 2 ^ n) (hroom : n ≤ 900) : Close 1 n a (.ofNat a) := by
  have hrange := Sized.natCast ha
  have he : ((a * unitsPerOne : Nat) : ℚ) / ((1 : Nat) : ℚ) / (unitsPerOne : Nat) = a := by
    rw [Nat.cast_one, div_one, Nat.cast_mul, mul_div_cancel_right₀ _ cast_unitsPerOne_pos.ne']
  rcases close_nearest Nat.one_pos he (hrange.mono hroom) with ⟨hfinite, hupper, hlower⟩
  refine ⟨⟨_, rfl, hfinite⟩, ?_, ?_, hrange⟩
  · rw [pow_one]
    exact hupper
  · rw [pow_one]
    exact hlower

/-- A product is close to the exact one: the factors of both operands come together with that of
    its own rounding, and so do the exponents of their sizes. -/
theorem mul (hx : Close k n q x) (hy : Close l m r y) (hroom : n + k + (m + l) ≤ 900) :
    Close (k + l + 1) (n + m) (q * r) (x.mul y) := by
  have hrange := (hx.sized_value.mul hy.sized_value).mono hroom
  have hx₀ := hx.sized_value.nonneg
  have hy₀ := hy.sized_value.nonneg
  have hq := hx.range.nonneg
  have hr := hy.range.nonneg
  have hupper := mul_le_mul hx.upper hy.upper hy₀ (hx₀.trans hx.upper)
  have hlower := mul_le_mul hx.lower hy.lower hr (hq.trans hx.lower)
  have hg := growth_pos
  rcases hx.unsigned with ⟨a, rfl, ha⟩
  rcases hy.unsigned with ⟨b, rfl, hb⟩
  -- Two scales of units are in the product, of which the rounding takes one.
  have he : ((a.units * b.units : Nat) : ℚ) / (unitsPerOne : Nat) / (unitsPerOne : Nat)
      = (number false a).value * (number false b).value := by
    rw [value_number, value_number, Nat.cast_mul]
    ring
  have hmul : (number false a).mul (number false b)
      = number false (.nearest (a.units * b.units) unitsPerOne) := by
    rw [Binary64.mul, ha, hb, Bool.and_self, if_pos rfl, bne_self_eq_false]
  rcases close_nearest unitsPerOne_pos he hrange with ⟨hfinite, hup, hlow⟩
  rw [hmul]
  refine ⟨⟨_, rfl, hfinite⟩, ?_, ?_, hx.range.mul hy.range⟩
  -- One rounding more on either side, and the factors of both operands.
  · calc _ ≤ _ * growth := hup
      _ ≤ q * growth ^ k * (r * growth ^ l) * growth := by gcongr
      _ = q * r * growth ^ (k + l + 1) := by ring
  · calc q * r ≤ _ := hlower
      _ = (number false a).value * (number false b).value * growth ^ (k + l) := by ring
      _ ≤ _ * growth * growth ^ (k + l) := by gcongr
      _ = _ * growth ^ (k + l + 1) := by ring

/-- A quotient is close to the exact one. The factors add up here as well, for a divisor that is
    too small makes the quotient as much too large. -/
theorem div (hx : Close k n q x) (hy : Close l m r y) (hr : r ≠ 0)
    (hroom : n + k + (m + l) ≤ 900) : Close (k + l + 1) (n + m) (q / r) (x.div y) := by
  have hrange := (hx.sized_value.div hy.sized_value).mono hroom
  have hx₀ := hx.sized_value.nonneg
  have hq := hx.range.nonneg
  have hrpos : 0 < r := lt_of_le_of_ne hy.range.nonneg hr.symm
  have hg := growth_pos
  have hypos : 0 < y.value := pos_of_mul_pos_left (lt_of_lt_of_le hrpos hy.lower) (by positivity)
  -- Dividing by a value is bounded by what bounds it from the other side.
  have hupper : x.value / y.value ≤ q / r * growth ^ (k + l) := by
    rw [div_le_iff₀ hypos]
    calc x.value ≤ q * growth ^ k := hx.upper
      _ = q / r * growth ^ k * r := by field_simp
      _ ≤ q / r * growth ^ k * (y.value * growth ^ l) := by
        gcongr
        exact hy.lower
      _ = q / r * growth ^ (k + l) * y.value := by ring
  have hlower : q / r ≤ x.value / y.value * growth ^ (k + l) := by
    rw [div_le_iff₀ hrpos]
    calc q ≤ x.value * growth ^ k := hx.lower
      _ = x.value / y.value * growth ^ k * y.value := by field_simp
      _ ≤ x.value / y.value * growth ^ k * (r * growth ^ l) := by
        gcongr
        exact hy.upper
      _ = x.value / y.value * growth ^ (k + l) * r := by ring
  rcases hx.unsigned with ⟨a, rfl, ha⟩
  rcases hy.unsigned with ⟨b, rfl, hb⟩
  have hunits : 0 < b.units := by
    rw [value_number] at hypos
    exact Nat.cast_pos.mp (pos_of_mul_pos_left hypos (inv_nonneg.mpr cast_unitsPerOne_pos.le))
  have he : ((a.units * unitsPerOne : Nat) : ℚ) / b.units / (unitsPerOne : Nat)
      = (number false a).value / (number false b).value := by
    have hunit := cast_unitsPerOne_pos
    rw [value_number, value_number, Nat.cast_mul]
    field_simp
  have hdiv : (number false a).div (number false b)
      = number false (.nearest (a.units * unitsPerOne) b.units) := by
    simp only [Binary64.div, ha, hb, if_neg (Nat.pos_iff_ne_zero.mp hunits), bne_self_eq_false]
  rcases close_nearest hunits he hrange with ⟨hfinite, hup, hlow⟩
  rw [hdiv]
  refine ⟨⟨_, rfl, hfinite⟩, ?_, ?_, hx.range.div hy.range⟩
  · calc _ ≤ _ * growth := hup
      _ ≤ q / r * growth ^ (k + l) * growth := by gcongr
      _ = q / r * growth ^ (k + l + 1) := by ring
  · calc q / r ≤ _ := hlower
      _ ≤ _ * growth * growth ^ (k + l) := by gcongr
      _ = _ * growth ^ (k + l + 1) := by ring

end Close

end Binary64

end AccelMonitor
