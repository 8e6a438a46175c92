import AccelMonitor.Offload
import AccelMonitor.Proofs.Number.Error

/-!
# The Error of an Offload Time

How far the nanoseconds that a call adds are from the exact ones.

A call sums its samples in floating point, takes the sum times a billion, and rounds to
a whole number. The last step is off by at most half a nanosecond. The steps before it
are off by what `drift` allows for one rounding more than there are samples. A negative
sum adds nothing, so the exact time to compare with is the positive part of the exact
sum.

## Main definitions

* `Offload.seconds`, `Offload.size`: The exact sum of some samples and of their absolute
  values.
* `Offload.added`: The nanoseconds that a call adds, before the total is capped.
* `Offload.Moderate`: The samples are numbers and far from the largest one.

## Theorems

* `total_near`: The computed sum against the exact one.
* `added_near`: The added nanoseconds against the exact ones.
* `offload_applySamples`: What a call makes of the total.
* `limit_le_uncertainty`: Samples with a vast sum leave all of the field open.
-/

namespace AccelMonitor

namespace Offload

/-- The exact sum of some samples. -/
def seconds (ts : List Binary64) : ℚ :=
  (ts.map Binary64.value).sum

/-- The exact sum of the absolute values of some samples. -/
def size (ts : List Binary64) : ℚ :=
  (ts.map fun t => |t.value|).sum

/-- The nanoseconds in some seconds, however many. -/
def allNanoseconds (t : Binary64) : Nat :=
  (t.mul (.ofNat 1000000000)).rounded

/-- The nanoseconds that some samples add, before the total is capped. -/
def added (ts : List Binary64) : Nat :=
  if ts = [] then 0 else if (total ts).lt .zero then 0 else allNanoseconds (total ts)

/-- The samples are numbers, and even with all roundings their sum is not vast. -/
structure Moderate (ts : List Binary64) : Prop where
  numbers : ∀ t ∈ ts, t.isNumber = true
  room : (1 + roundoff) ^ (ts.length + 1) * size ts < vast

theorem size_nonneg (ts : List Binary64) : 0 ≤ size ts := by
  refine List.sum_nonneg fun q hq => ?_
  rcases List.mem_map.mp hq with ⟨t, _, rfl⟩
  exact abs_nonneg _

theorem Moderate.room_before {ts : List Binary64} (h : Moderate ts) :
    (1 + roundoff) ^ ts.length * size ts < vast := by
  have hgrowth : (1 + roundoff) ^ ts.length ≤ (1 + roundoff) ^ (ts.length + 1) :=
    pow_le_pow_right₀ (by linarith [roundoff_pos]) (Nat.le_succ _)
  exact lt_of_le_of_lt (mul_le_mul_of_nonneg_right hgrowth (size_nonneg ts)) h.room

/-- The computed sum of some samples is near the exact one. -/
theorem total_near {ts : List Binary64} (h : Moderate ts) :
    Binary64.Near ts.length (seconds ts) (size ts) (total ts) := by
  have hroom := h.room_before
  rw [← zero_add (size ts), ← Nat.zero_add ts.length] at hroom
  have hnear := Binary64.Near.zero.foldl_add h.numbers hroom
  simp only [zero_add] at hnear
  exact hnear

theorem Moderate.abs_total_le {ts : List Binary64} (h : Moderate ts) : |(total ts).value| ≤ vast :=
  (total_near h).abs_value_le.trans h.room_before.le

/-- What compares as below zero has a value that is not positive. A value that is no number does
    not compare at all. -/
theorem value_nonpos_of_lt {t : Binary64} (h : t.lt .zero = true) : t.value ≤ 0 := by
  cases t with
  | nan => cases h
  | number s m =>
    have hkey : Binary64.key s m < 0 := of_decide_eq_true h
    cases s with
    | false =>
      rw [Binary64.key, if_neg Bool.false_ne_true] at hkey
      omega
    | true =>
      rw [Binary64.value, Binary64.signedUnits, if_pos rfl, Int.cast_neg, neg_div, neg_nonpos,
        Int.cast_natCast]
      exact div_nonneg (Nat.cast_nonneg _) cast_unitsPerOne_pos.le

/-- The nanoseconds in some seconds that are not negative. Two roundings are made: the product
    with a billion is rounded to a floating-point number, which costs a part of it, and then to
    a whole number, which costs a half at most. -/
theorem allNanoseconds_near {t : Binary64} (ht : t.isFinite = true) (hsign : t.lt .zero = false)
    (h : |t.value| ≤ vast) :
    0 ≤ t.value ∧
      |(allNanoseconds t : ℚ) - 10 ^ 9 * t.value| ≤ 1 / 2 + roundoff * (10 ^ 9 * t.value) := by
  cases t with
  | nan => cases ht
  | number s m =>
    -- The product with a billion is rounded once, in proportion to itself.
    rcases Binary64.mul_billion_value ht h with ⟨n, hmul, _, herror⟩
    have hkey : ¬ Binary64.key s m < 0 := of_decide_eq_false hsign
    cases s with
    | true =>
      -- Only the negative zero has a sign and is not negative.
      have hrank : m.rank = 0 := by
        rw [Binary64.key, if_pos rfl] at hkey
        omega
      have hunits : m.units = 0 := by
        rw [Magnitude.units, hrank]
        rfl
      have hvalue : (Binary64.number true m).value = 0 := by
        rw [← abs_eq_zero, Binary64.abs_value, hunits, Nat.cast_zero, zero_div]
      rw [allNanoseconds, hmul, hvalue]
      norm_num [Binary64.rounded]
    | false =>
      have hvalue : 0 ≤ (Binary64.number false m).value := by
        rw [Binary64.value, Binary64.signedUnits, if_neg Bool.false_ne_true, Int.cast_natCast]
        exact div_nonneg (Nat.cast_nonneg _) cast_unitsPerOne_pos.le
      refine ⟨hvalue, ?_⟩
      -- Rounding to a whole number adds up to a half to the error of the product.
      have hround := abs_roundHalfUp_sub n.units unitsPerOne_pos
      have hproduct : (Binary64.number false n).value = (n.units : ℚ) / (unitsPerOne : Nat) := by
        rw [Binary64.value, Binary64.signedUnits, if_neg Bool.false_ne_true, Int.cast_natCast]
      rw [abs_of_nonneg (mul_nonneg (by norm_num) hvalue), hproduct] at herror
      rw [allNanoseconds, hmul, Binary64.rounded]
      have htriangle := abs_add_le ((roundHalfUp n.units unitsPerOne : ℚ)
        - (n.units : ℚ) / (unitsPerOne : Nat)) ((n.units : ℚ) / (unitsPerOne : Nat)
        - 10 ^ 9 * (Binary64.number false m).value)
      rw [sub_add_sub_cancel] at htriangle
      linarith

/-- How far rounding to a whole nanosecond can move the time of some samples. -/
def halfStep (ts : List Binary64) : ℚ :=
  if ts = [] then 0 else 1 / 2

theorem abs_sub_max_le {x y : ℚ} (hx : 0 ≤ x) : |x - max 0 y| ≤ |x - y| := by
  rcases le_total 0 y with hy | hy
  · rw [max_eq_right hy]
  · rw [max_eq_left hy, sub_zero, abs_of_nonneg hx, abs_of_nonneg (by linarith)]
    linarith

/-- The nanoseconds that some samples add are near the exact ones, of which there are none if
    the exact sum is negative. The two sums can lie on different sides of zero. Then the exact
    one is within the drift of zero itself, so that dropping a computed sum that is negative
    costs no more than adding it. -/
theorem added_near {ts : List Binary64} (h : Moderate ts) :
    |(added ts : ℚ) - 10 ^ 9 * max 0 (seconds ts)|
      ≤ halfStep ts + 10 ^ 9 * drift (ts.length + 1) (size ts) := by
  rw [added, halfStep]
  by_cases hnil : ts = []
  · subst hnil
    rw [if_pos rfl, if_pos rfl, show seconds [] = 0 from rfl, show size [] = 0 from rfl]
    norm_num [drift]
  · rw [if_neg hnil, if_neg hnil]
    -- The additions have put the computed sum off by the drift.
    have hnear := total_near h
    have hdrift : drift ts.length (size ts) ≤ drift (ts.length + 1) (size ts) :=
      drift_mono (Nat.le_succ _) (size_nonneg ts)
    cases hsign : (total ts).lt .zero with
    | true =>
      -- The computed sum is negative, so the exact one can hardly be positive.
      have hvalue := value_nonpos_of_lt hsign
      have hwithin := (abs_le.mp hnear.within).1
      have hpositive : max 0 (seconds ts) ≤ drift (ts.length + 1) (size ts) := by
        refine max_le (drift_nonneg _ (size_nonneg ts)) ?_
        linarith
      have hmax : (0 : ℚ) ≤ max 0 (seconds ts) := le_max_left ..
      rw [if_pos rfl, Nat.cast_zero, zero_sub, abs_neg, abs_of_nonneg (by positivity)]
      linarith
    | false =>
      rcases allNanoseconds_near hnear.finite hsign h.abs_total_le with ⟨hvalue, herror⟩
      rw [if_neg Bool.false_ne_true]
      -- A sum that is not negative is no further from the positive part than from the sum.
      have hclamp : |(total ts).value - max 0 (seconds ts)| ≤ drift ts.length (size ts) :=
        (abs_sub_max_le hvalue).trans hnear.within
      have hlarge := hnear.abs_value_le
      rw [abs_of_nonneg hvalue] at hlarge
      -- The product is rounded once more, in proportion to how large the sum can be.
      have hlast : roundoff * (10 ^ 9 * (total ts).value)
          ≤ 10 ^ 9 * (roundoff * ((1 + roundoff) ^ ts.length * size ts)) := by
        rw [mul_left_comm]
        exact mul_le_mul_of_nonneg_left (mul_le_mul_of_nonneg_left hlarge roundoff_pos.le)
          (by norm_num)
      have hscaled := mul_le_mul_of_nonneg_left hclamp (by norm_num : (0 : ℚ) ≤ 10 ^ 9)
      have htriangle := abs_add_le ((allNanoseconds (total ts) : ℚ) - 10 ^ 9 * (total ts).value)
        (10 ^ 9 * ((total ts).value - max 0 (seconds ts)))
      rw [abs_mul, abs_of_pos (by norm_num : (0 : ℚ) < 10 ^ 9), mul_sub, sub_add_sub_cancel]
        at htriangle
      rw [drift_succ, mul_add, ← add_assoc]
      exact htriangle.trans (add_le_add (herror.trans (add_le_add_right hlast _)) hscaled)

/-- Adding nothing changes no total. -/
theorem addTotals_zero {a : Nat} (h : a < Text.limit64) : addTotals a 0 = a := by
  rw [addTotals, Nat.add_zero]
  omega

/-- Capping a summand first makes no difference to a capped sum. -/
theorem addTotals_min (a b : Nat) : addTotals a (min b (Text.limit64 - 1)) = addTotals a b := by
  rw [addTotals, addTotals]
  omega

theorem addTotals_lt (a b : Nat) : addTotals a b < Text.limit64 := by
  have hpos : 0 < Text.limit64 := twoTo_pos 64
  rw [addTotals]
  omega

/-- Adding one after the other is adding the sum. -/
theorem addTotals_addTotals (a b c : Nat) : addTotals (addTotals a b) c = addTotals a (b + c) := by
  rw [addTotals, addTotals, addTotals]
  omega

/-- What moderate samples make of the total. The update distinguishes no samples, a negative sum
    and a sum that is converted and added; in each case the total is that with what the samples
    add, which is nothing in the first two. -/
theorem offload_applySamples {ts : List Binary64} (h : Moderate ts) {stats : Statistics}
    (hstats : stats.offload < Text.limit64) :
    (applySamples ts stats).2.offload = addTotals stats.offload (added ts) := by
  rw [applySamples, added]
  by_cases hnil : ts = []
  · rw [if_pos hnil, if_pos hnil, addTotals_zero hstats]
  · rw [if_neg hnil, if_neg hnil]
    by_cases hsign : (total ts).lt .zero = true
    · rw [if_pos hsign, if_pos hsign, addTotals_zero hstats]
    · rw [if_neg hsign, if_neg hsign]
      -- A finite product is rounded first and capped afterwards.
      have hfinite : ((total ts).mul (.ofNat 1000000000)).isFinite = true := by
        have htotal := (total_near h).finite
        have hvast := h.abs_total_le
        cases hvalue : total ts with
        | nan =>
          rw [hvalue] at htotal
          cases htotal
        | number s m =>
          rw [hvalue] at htotal hvast
          rcases Binary64.mul_billion_value htotal hvast with ⟨n, hmul, hn, _⟩
          rw [hmul]
          exact hn
      rw [nanoseconds, Binary64.roundBelow_eq hfinite]
      exact addTotals_min ..

/-- Whatever the samples are, the total stays within its field. -/
theorem offload_applySamples_lt (ts : List Binary64) {stats : Statistics}
    (hstats : stats.offload < Text.limit64) :
    (applySamples ts stats).2.offload < Text.limit64 := by
  rw [applySamples]
  split
  · exact hstats
  · split
    · exact hstats
    · exact addTotals_lt ..

/-- The nanoseconds that floating point leaves open when some samples are summed. -/
def uncertainty (ts : List Binary64) : ℚ :=
  2 * 10 ^ 9 * drift (ts.length + 1) (size ts)

theorem uncertainty_nonneg (ts : List Binary64) : 0 ≤ uncertainty ts :=
  mul_nonneg (by norm_num) (drift_nonneg _ (size_nonneg ts))

/-- Where the sum is vast, floating point leaves all of the field open. The bound on the totals
    then says nothing, and it holds for that reason alone. Nothing has to be known of sums that
    overflow, and the theorem about cuts needs no hypothesis on how large the samples are. -/
theorem limit_le_uncertainty {ts : List Binary64}
    (h : vast ≤ (1 + roundoff) ^ (ts.length + 1) * size ts) :
    ((Text.limit64 : Nat) : ℚ) ≤ uncertainty ts := by
  have hsize := size_nonneg ts
  -- All but the first rounding multiply, so half a rounding of the whole is part of the drift.
  have hgrowth : roundoff / 2 * (1 + roundoff) ^ (ts.length + 1)
      ≤ (1 + roundoff) ^ (ts.length + 1) - 1 := by
    have hbefore := one_le_growth ts.length
    have hsmall : roundoff ≤ 1 := by norm_num [roundoff]
    have hfactor : 1 ≤ (1 + roundoff) * (1 - roundoff / 2) := by
      have hpos := roundoff_pos
      nlinarith
    have hboth := one_le_mul_of_one_le_of_one_le hbefore hfactor
    rw [pow_succ]
    linarith
  have hdrift : roundoff / 2 * vast ≤ drift (ts.length + 1) (size ts) := by
    have hscaled := mul_le_mul_of_nonneg_left h (by linarith [roundoff_pos] : 0 ≤ roundoff / 2)
    have hpart := mul_le_mul_of_nonneg_right hgrowth hsize
    rw [drift]
    linarith
  -- The field is small beside the rounding of a vast sum.
  have hfield : ((Text.limit64 : Nat) : ℚ) ≤ 2 * 10 ^ 9 * (roundoff / 2 * vast) := by
    have hvast : vast = 2 ^ 847 * 2 ^ 53 := by
      rw [vast, ← pow_add]
    have hsmall : (2 : ℚ) ^ 64 ≤ 2 ^ 847 := pow_le_pow_right₀ (by norm_num) (by norm_num)
    have hexact : 2 * 10 ^ 9 * (roundoff / 2 * (2 ^ 847 * 2 ^ 53)) = 10 ^ 9 * (2 : ℚ) ^ 847 := by
      rw [roundoff]
      field_simp
    rw [Text.limit64, cast_twoTo, hvast, hexact]
    exact hsmall.trans (le_mul_of_one_le_left (by positivity) (by norm_num))
  exact hfield.trans (mul_le_mul_of_nonneg_left hdrift (by norm_num))

end Offload

end AccelMonitor
