import AccelMonitor.Proofs.DeviceLog.Calendar

/-!
# A Millisecond Later

The calendar as a count of minutes and milliseconds.

A year without a number has as many minutes as a leap year. A time that exists lies in one
of them, at one of its milliseconds, and these two numbers determine the time. A minute has
60,000 milliseconds, or 1,000 more for a time in its leap second. One millisecond later is
then one millisecond further in the same minute or, behind its last one, the start of the
next minute, and the first minute of the year comes after the last. This says what
`LogTime.next` does with all of its carries, and does not mention a single one.

## Main definitions

* `LogTime.daysThrough`: The days of the first months of a year.
* `LogTime.minuteOfYear`, `LogTime.milliOfMinute`: The two numbers of a time.
* `LogTime.IsMilliAfter`: A time is one millisecond after another.

## Theorems

* `date_unique`: A day of the year is one day of one month.
* `eq_of_minuteOfYear`: The two numbers determine the time.
* `isMilliAfter_next`: The next millisecond is one millisecond later.
* `isMilliAfter_iff`: It is the only time that is one millisecond later.
-/

namespace AccelMonitor

namespace LogTime

/-- The number of days in the first months of a leap year. -/
def daysThrough : Nat → Nat
  | 0 => 0
  | month + 1 => daysThrough month + daysIn (month + 1)

/-- The number of full minutes since the year began. -/
def minuteOfYear (t : LogTime) : Nat :=
  ((daysThrough (t.month - 1) + (t.day - 1)) * 24 + t.hour) * 60 + t.minute

/-- The number of minutes in a leap year. -/
def minutesInYear : Nat :=
  daysThrough 12 * 24 * 60

/-- The number of full milliseconds since the minute began. -/
def milliOfMinute (t : LogTime) : Nat :=
  t.second * 1000 + t.milli

/-- The number of milliseconds in the minute of a time. A minute is longer for a time in its
    leap second. -/
def minuteLength (t : LogTime) : Nat :=
  if t.second = 60 then 61000 else 60000

/-- `u` is one millisecond after `t`, in the same minute or at the start of the next one. A
    minute is as long as its last second, which can be a leap second, and the last minute of a
    year is followed by the first one. -/
structure IsMilliAfter (t u : LogTime) : Prop where
  valid : u.isValid = true
  minute : u.minuteOfYear
    = if t.milliOfMinute + 1 < t.minuteLength then t.minuteOfYear
      else (t.minuteOfYear + 1) % minutesInYear
  milli : u.milliOfMinute
    = if t.milliOfMinute + 1 < t.minuteLength then t.milliOfMinute + 1 else 0

theorem minutesInYear_eq : minutesInYear = 527040 := rfl

/-- The days before a month and those of the month are the days up to its end. -/
theorem daysThrough_pred {month : Nat} (h : 1 ≤ month) :
    daysThrough (month - 1) + daysIn month = daysThrough month := by
  cases month with
  | zero => omega
  | succ month => rfl

theorem daysThrough_mono {m n : Nat} (h : m ≤ n) : daysThrough m ≤ daysThrough n := by
  induction h with
  | refl => exact Nat.le_refl _
  | step _ ih => exact Nat.le_trans ih (Nat.le_add_right ..)

/-- A day of the year is one day of one month. -/
theorem date_unique {m n d e : Nat} (hm : 1 ≤ m) (hn : 1 ≤ n) (hd : 1 ≤ d ∧ d ≤ daysIn m)
    (he : 1 ≤ e ∧ e ≤ daysIn n)
    (h : daysThrough (m - 1) + (d - 1) = daysThrough (n - 1) + (e - 1)) : m = n ∧ d = e := by
  have hmonth := daysThrough_pred hm
  have hmonth' := daysThrough_pred hn
  -- A later month begins behind all days of an earlier one.
  rcases Nat.lt_trichotomy m n with hlt | rfl | hlt
  · have hmono := daysThrough_mono (show m ≤ n - 1 by omega)
    omega
  · omega
  · have hmono := daysThrough_mono (show n ≤ m - 1 by omega)
    omega

/-- Minute and millisecond determine the time. -/
theorem eq_of_minuteOfYear {t u : LogTime} (ht : t.isValid = true) (hu : u.isValid = true)
    (hminute : t.minuteOfYear = u.minuteOfYear) (hmilli : t.milliOfMinute = u.milliOfMinute) :
    t = u := by
  rcases t with ⟨month, day, hour, minute, second, milli⟩
  rcases u with ⟨month', day', hour', minute', second', milli'⟩
  simp only [isValid, Bool.and_eq_true, decide_eq_true_eq] at ht hu
  simp only [minuteOfYear] at hminute
  simp only [milliOfMinute] at hmilli
  have hdate := date_unique (m := month) (n := month') (d := day) (e := day') (by omega) (by omega)
    ⟨by omega, by omega⟩ ⟨by omega, by omega⟩ (by omega)
  simp only [LogTime.mk.injEq]
  omega

/-- Behind the last millisecond of a minute the next minute starts, and the first one of the
    year behind the last one. -/
theorem minuteOfYear_nextMinute {t : LogTime} (ht : t.isValid = true) :
    t.nextMinute.minuteOfYear = (t.minuteOfYear + 1) % minutesInYear ∧
      t.nextMinute.milliOfMinute = 0 := by
  rcases t with ⟨month, day, hour, minute, second, milli⟩
  simp only [isValid, Bool.and_eq_true, decide_eq_true_eq] at ht
  have hmonth := daysThrough_pred (show 1 ≤ month by omega)
  -- Only in December the year can end.
  have hrest : month < 12 → daysThrough month ≤ 335 :=
    fun h => daysThrough_mono (n := 11) (by omega)
  have hyear : month = 12 → daysIn month = 31 ∧ daysThrough (month - 1) = 335 := by
    rintro rfl
    exact ⟨rfl, rfl⟩
  simp only [nextMinute, nextHour, nextDay, nextMonth]
  repeat' split
  all_goals
    simp only [minuteOfYear, milliOfMinute, minutesInYear_eq, Nat.zero_mul, Nat.add_zero,
      Nat.add_sub_cancel, Nat.sub_self, and_true]
  · omega
  · omega
  · omega
  · omega
  · have hjanuary : daysThrough 0 = 0 := rfl
    omega

/-- Before the last millisecond of a minute the next one is in the same minute. -/
theorem next_of_lt {t : LogTime} (hlast : t.milli ≤ 999) (h : t.milli < 999 ∨ t.second < 59) :
    t.next.minuteOfYear = t.minuteOfYear ∧ t.next.milliOfMinute = t.milliOfMinute + 1 := by
  rw [next]
  by_cases hmilli : t.milli < 999
  · rw [if_pos hmilli]
    exact ⟨rfl, (Nat.add_assoc ..).symm⟩
  · rw [if_neg hmilli, nextSecond, if_pos (h.resolve_left hmilli)]
    refine ⟨rfl, ?_⟩
    simp only [milliOfMinute]
    omega

/-- The next millisecond is one millisecond later. Within a minute the milliseconds are counted;
    at its end the minute of the year is, which is where the lengths of months and the turn of the
    year come in. A minute with a leap second has one second more. -/
theorem isMilliAfter_next {t : LogTime} (ht : t.isValid = true) : IsMilliAfter t t.next := by
  have hbounds := ht
  simp only [isValid, Bool.and_eq_true, decide_eq_true_eq] at hbounds
  have hlength : t.milliOfMinute + 1 < t.minuteLength ↔ t.milli < 999 ∨ t.second < 59 := by
    rw [milliOfMinute, minuteLength]
    split
    · omega
    · omega
  -- Either the minute goes on, or the carry reaches the next one.
  by_cases hsame : t.milli < 999 ∨ t.second < 59
  · have hnext := next_of_lt hbounds.2 hsame
    refine ⟨isValid_next ht, ?_, ?_⟩
    · rw [if_pos (hlength.mpr hsame), hnext.1]
    · rw [if_pos (hlength.mpr hsame), hnext.2]
  · have hnext := minuteOfYear_nextMinute ht
    have hcarry : t.next = t.nextMinute := by
      rw [not_or] at hsame
      rw [next, if_neg hsame.1, nextSecond, if_neg hsame.2]
    refine ⟨isValid_next ht, ?_, ?_⟩
    · rw [if_neg (mt hlength.mp hsame), hcarry, hnext.1]
    · rw [if_neg (mt hlength.mp hsame), hcarry, hnext.2]

/-- The next millisecond is the only time that is one millisecond later. -/
theorem isMilliAfter_iff {t u : LogTime} (ht : t.isValid = true) :
    IsMilliAfter t u ↔ u = t.next := by
  have hnext := isMilliAfter_next ht
  constructor
  · intro h
    exact eq_of_minuteOfYear h.valid hnext.valid (h.minute.trans hnext.minute.symm)
      (h.milli.trans hnext.milli.symm)
  · rintro rfl
    exact hnext

end LogTime

end AccelMonitor
