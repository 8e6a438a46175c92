import AccelMonitor.Number.Binary64

/-!
# How Near the Nearest Value Is

The error of one rounding, in units of the smallest positive value.

Every rounding of the format goes through `Magnitude.nearest`, which gets an exact
quotient of units. At most half of a step of the binade is lost. A step is a part in
`2 ^ 52` of the value at most, except in the lowest binade, where it is one unit. When the
quotient is a whole number, as it is for a sum and for a product with a whole number,
nothing is lost there, so that the error is a part in `2 ^ 53` of the value in any case.
Overflow happens only from `2 ^ 2097` units on.

## Theorems

* `unitsAt_binade`: The value at a place of a binade.
* `nearest_scaled`: A whole quotient is rounded like the number itself.
* `quotient_nearest`: The value nearest to a quotient of units.
* `units_nearest`: The value nearest to a number of units.
-/

namespace AccelMonitor

theorem twoTo_add (m n : Nat) : twoTo (m + n) = twoTo m * twoTo n :=
  Nat.pow_add 2 m n

theorem log2_lt {n k : Nat} (hn : n ≠ 0) (h : n < twoTo k) : Nat.log2 n < k :=
  (Nat.log2_lt hn).mpr h

/-- A quotient is rounded the same when numerator and denominator are scaled. -/
theorem roundHalfEven_scaled (num den : Nat) {d : Nat} (hd : 0 < d) :
    roundHalfEven (num * d) (den * d) = roundHalfEven num den := by
  have hdiv : num * d / (den * d) = num / den := Nat.mul_div_mul_right num den hd
  have hmod : num * d % (den * d) = num % den * d := Nat.mul_mod_mul_right d num den
  have hlt : 2 * (num % den * d) < den * d ↔ 2 * (num % den) < den := by
    rw [← Nat.mul_assoc]
    exact Nat.mul_lt_mul_right hd
  have heq : 2 * (num % den * d) = den * d ↔ 2 * (num % den) = den := by
    rw [← Nat.mul_assoc]
    exact Nat.mul_right_cancel_iff hd
  simp only [roundHalfEven, hdiv, hmod, hlt, heq]

namespace Magnitude

/-- The value at a place of a binade. The place behind the last one belongs to the next binade
    and has the value that it would have in this one. Rounding up can get there, and needs no
    case of its own for that reason. -/
theorem unitsAt_binade {shift k : Nat} (hlow : shift = 0 ∨ binadeSize ≤ k)
    (hhigh : k ≤ 2 * binadeSize) : unitsAt (shift * binadeSize + k) = k * twoTo shift := by
  have hsize : binadeSize = 4503599627370496 := rfl
  by_cases hsmall : k < binadeSize
  · -- Below the first full binade a place is a number of units.
    have hzero : shift = 0 := by omega
    subst hzero
    rw [unitsAt, Nat.zero_mul, Nat.zero_add, if_pos hsmall]
    exact (Nat.mul_one k).symm
  · have hplace : ¬ shift * binadeSize + k < binadeSize := by omega
    rw [unitsAt, if_neg hplace]
    by_cases hinside : k < 2 * binadeSize
    · have hdiv : (shift * binadeSize + k) / binadeSize - 1 = shift := by
        rw [hsize] at *
        omega
      have hmod : binadeSize + (shift * binadeSize + k) % binadeSize = k := by
        rw [hsize] at *
        omega
      rw [hdiv, hmod]
    · -- The place behind the last one is the first of the next binade.
      have hk : k = binadeSize * 2 := by omega
      have hdiv : (shift * binadeSize + k) / binadeSize - 1 = shift + 1 := by
        rw [hsize] at *
        omega
      have hmod : (shift * binadeSize + k) % binadeSize = 0 := by
        rw [hsize] at *
        omega
      rw [hdiv, hmod, hk, twoTo_succ, Nat.add_zero, Nat.mul_assoc, Nat.mul_comm 2]

/-- In which binade a number of units lies: with the step of that binade, it is less than two
    sizes of a binade and, unless the step is one unit, at least one. This is what makes the
    number of steps fit the bits of the significand. -/
theorem binade_bounds (a : Nat) :
    a < 2 * binadeSize * twoTo (Nat.log2 a - 52) ∧
      (Nat.log2 a - 52 = 0 ∨ binadeSize * twoTo (Nat.log2 a - 52) ≤ a) := by
  have hupper : a < twoTo (Nat.log2 a + 1) := Nat.lt_log2_self
  by_cases hsmall : Nat.log2 a ≤ 52
  · -- All the bits fit, and the step is one unit.
    have hzero : Nat.log2 a - 52 = 0 := by omega
    have hmono : twoTo (Nat.log2 a + 1) ≤ twoTo 53 := Nat.pow_le_pow_right (by decide) (by omega)
    rw [hzero]
    exact ⟨Nat.lt_of_lt_of_le hupper hmono, Or.inl rfl⟩
  · have hne : a ≠ 0 := by
      rintro rfl
      exact hsmall (Nat.zero_le _)
    have hlower : twoTo (Nat.log2 a) ≤ a := Nat.log2_self_le hne
    have hlog : Nat.log2 a = 52 + (Nat.log2 a - 52) := by omega
    refine ⟨?_, Or.inr ?_⟩
    · rw [Nat.mul_comm 2, Nat.mul_assoc, Nat.mul_comm 2, ← twoTo_succ, binadeSize, ← twoTo_add,
        ← Nat.add_assoc, ← hlog]
      exact hupper
    · rw [binadeSize, ← twoTo_add, ← hlog]
      exact hlower

/-- A whole quotient is rounded like the number itself. -/
theorem nearest_scaled (a : Nat) {d : Nat} (hd : 0 < d) : nearest (a * d) d = nearest a 1 := by
  have hround : ∀ shift, roundHalfEven (a * d) (d * twoTo shift)
      = roundHalfEven a (1 * twoTo shift) := by
    intro shift
    rw [Nat.mul_comm d, roundHalfEven_scaled a _ hd, Nat.one_mul]
  rw [nearest, nearest, Nat.mul_div_cancel a hd, Nat.div_one, hround]

/-- In which binade a quotient lies. It is that of its whole part, since the ends of a binade are
    whole numbers of steps. -/
theorem quotient_bounds (num : Nat) {den : Nat} (hden : 0 < den) :
    num < 2 * binadeSize * (den * twoTo (Nat.log2 (num / den) - 52)) ∧
      (Nat.log2 (num / den) - 52 = 0 ∨
        binadeSize * (den * twoTo (Nat.log2 (num / den) - 52)) ≤ num) := by
  have hbounds := binade_bounds (num / den)
  generalize twoTo (Nat.log2 (num / den) - 52) = step at hbounds ⊢
  have hfloor : num / den * den ≤ num := Nat.div_mul_le_self num den
  -- From the floor of the quotient to the numerator: times the denominator, and up to one
  -- denominator more.
  refine ⟨?_, hbounds.2.imp id fun hlow => ?_⟩
  · calc num < (num / den + 1) * den := by
          rw [Nat.mul_comm]
          exact Nat.lt_mul_div_succ num hden
      _ ≤ 2 * binadeSize * step * den := Nat.mul_le_mul_right den hbounds.1
      _ = 2 * binadeSize * (den * step) := by rw [Nat.mul_assoc, Nat.mul_comm step]
  · calc binadeSize * (den * step) = binadeSize * step * den := by
          rw [Nat.mul_assoc, Nat.mul_comm step]
      _ ≤ num / den * den := Nat.mul_le_mul_right den hlow
      _ ≤ num := hfloor

/-- The place of the value nearest to a quotient in the binade of the quotient. Rounding may reach
    the upper end, which is the first value of the next binade, but does not leave it. -/
theorem round_bounds (num : Nat) {den : Nat} (hden : 0 < den) :
    roundHalfEven num (den * twoTo (Nat.log2 (num / den) - 52)) ≤ 2 * binadeSize ∧
      (Nat.log2 (num / den) - 52 = 0 ∨
        binadeSize ≤ roundHalfEven num (den * twoTo (Nat.log2 (num / den) - 52))) := by
  have hbounds := quotient_bounds num hden
  have hpos : 0 < den * twoTo (Nat.log2 (num / den) - 52) := Nat.mul_pos hden (twoTo_pos _)
  have hnear := roundHalfEven_near num hpos
  generalize den * twoTo (Nat.log2 (num / den) - 52) = step at *
  generalize roundHalfEven num step = k at *
  refine ⟨?_, hbounds.2.imp id fun hlow => ?_⟩
  · -- One place further would be more than half a step too far.
    refine Nat.le_of_not_lt fun hover => ?_
    have hmul : (2 * binadeSize + 1) * step ≤ k * step := Nat.mul_le_mul_right step (by omega)
    rw [Nat.add_mul, Nat.one_mul] at hmul
    omega
  · -- One place less would be too far below, for a binade begins at a place.
    refine Nat.le_of_not_lt fun hunder => ?_
    have hmul : (k + 1) * step ≤ binadeSize * step := Nat.mul_le_mul_right step (by omega)
    rw [Nat.add_mul, Nat.one_mul] at hmul
    omega

/-- The value nearest to a quotient of units that is not too large is finite, and it differs
    from the quotient by at most half of a step. A step is a part in `2 ^ 52` of the quotient
    or one unit. -/
theorem quotient_nearest {num den : Nat} (hden : 0 < den) (hnum : num < twoTo 2097 * den) :
    (nearest num den).isFinite = true ∧
      ∃ step, 2 * num ≤ 2 * ((nearest num den).units * den) + den * step ∧
        2 * ((nearest num den).units * den) ≤ 2 * num + den * step ∧
        (step = 1 ∨ binadeSize * (den * step) ≤ num) := by
  -- The binade is far from the last, so the rank is not cut off at infinity.
  have hlog : Nat.log2 (num / den) - 52 < 2045 := by
    by_cases hzero : num / den = 0
    · rw [hzero]
      decide
    · have hquotient : num / den < twoTo 2097 := (Nat.div_lt_iff_lt_mul hden).mpr hnum
      have hlt := log2_lt hzero hquotient
      omega
  have hround := round_bounds num hden
  -- The quotient is rounded to a multiple of the step of its binade.
  have hpos : 0 < den * twoTo (Nat.log2 (num / den) - 52) := Nat.mul_pos hden (twoTo_pos _)
  have hnear := roundHalfEven_near num hpos
  have hlast : infinityRank = 2047 * binadeSize := rfl
  have hmul : (Nat.log2 (num / den) - 52) * binadeSize ≤ 2044 * binadeSize :=
    Nat.mul_le_mul_right binadeSize (by omega)
  -- So the rank and the value of the result are those of this multiple.
  have hrank : (nearest num den).rank = (Nat.log2 (num / den) - 52) * binadeSize
      + roundHalfEven num (den * twoTo (Nat.log2 (num / den) - 52)) := by
    rw [nearest, ofRank]
    exact Nat.min_eq_left (by omega)
  have hunits : (nearest num den).units * den
      = roundHalfEven num (den * twoTo (Nat.log2 (num / den) - 52))
        * (den * twoTo (Nat.log2 (num / den) - 52)) := by
    rw [units, hrank, unitsAt_binade hround.2 hround.1, Nat.mul_assoc, Nat.mul_comm den]
  refine ⟨?_, twoTo (Nat.log2 (num / den) - 52), ?_⟩
  · have hsize : 0 < binadeSize := twoTo_pos 52
    rw [isFinite, hrank, decide_eq_true_eq]
    omega
  · rw [hunits]
    refine ⟨hnear.1, hnear.2, (quotient_bounds num hden).2.imp (fun hzero => ?_) id⟩
    rw [hzero]
    rfl

/-- The value nearest to a number of units that is not too large is finite, and it differs
    from the number by at most a part in `2 ^ 53`. -/
theorem units_nearest {a : Nat} (ha : a < twoTo 2097) :
    (nearest a 1).isFinite = true ∧
      twoTo 53 * (nearest a 1).units ≤ twoTo 53 * a + a ∧
      twoTo 53 * a ≤ twoTo 53 * (nearest a 1).units + a := by
  have hprecision : twoTo 53 = 2 * binadeSize := rfl
  have hsize : binadeSize = 4503599627370496 := rfl
  rcases quotient_nearest Nat.one_pos (Nat.lt_of_lt_of_eq ha (Nat.mul_one _).symm) with
    ⟨hfinite, step, hlower, hupper, hstep⟩
  rw [Nat.mul_one, Nat.one_mul] at hlower hupper
  rw [hprecision, hsize]
  refine ⟨hfinite, ?_⟩
  rcases hstep with rfl | hstep
  · -- Up to 53 bits a step is one unit, so nothing is rounded.
    omega
  · rw [Nat.one_mul, hsize] at hstep
    omega

end Magnitude

end AccelMonitor
