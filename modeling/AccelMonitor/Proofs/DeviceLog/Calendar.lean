import AccelMonitor.DeviceLog.Time
import AccelMonitor.Proofs.Number.Digits

/-!
# The Calendar of the Device Log

The next millisecond, in numbers and in characters.

The digits of a time stamp, read as one number, grow with time, although not every
number is that of a time: there are gaps behind every full minute, hour, day and month.
`next` jumps over them. That is what makes it the right watermark: a time is at or after
the next millisecond exactly if it is after this one. Two times are exceptions. A leap
second lies in a gap, and at the very end of the year the next millisecond is the first
of all.

A watermark goes to the device as text and is read there, so `ofStamp?_chars` closes
the circle: the stamp of a time that exists names that time.

## Main definitions

* `LogTime.rank`: The digits of the stamp as a number.
* `LogTime.isRegular`: The time exists and is not in a leap second.
* `LogTime.last`: The last millisecond of the year.

## Theorems

* `isValid_next`, `isRegular_next`: The next millisecond exists too.
* `next_le_iff`: It is the first time after this one.
* `stampList_chars`: A text that begins with a time begins with a stamp.
* `ofStamp?_chars`: A stamp names its time.
-/

namespace AccelMonitor

namespace LogTime

/-- The digits of the stamp, as one number. -/
def rank (t : LogTime) : Nat :=
  ((((t.month * 100 + t.day) * 100 + t.hour) * 100 + t.minute) * 100 + t.second) * 1000 + t.milli

/-- The time exists and is not in a leap second. -/
def isRegular (t : LogTime) : Bool :=
  t.isValid && t.second ≤ 59

/-- The last millisecond of the year. -/
def last : LogTime :=
  ⟨12, 31, 23, 59, 59, 999⟩

theorem daysIn_bounds (month : Nat) : 29 ≤ daysIn month ∧ daysIn month ≤ 31 := by
  rw [daysIn.eq_def]
  split
  · omega
  · omega
  · omega
  · omega
  · omega
  · omega

theorem isValid_of_isRegular {t : LogTime} (h : t.isRegular = true) : t.isValid = true := by
  rw [isRegular, Bool.and_eq_true] at h
  exact h.1

/-- The next millisecond exists: at each carry the next field goes up or starts again, and a day
    is not carried past the end of its month. -/
theorem isValid_next {t : LogTime} (ht : t.isValid = true) : t.next.isValid = true := by
  rcases t with ⟨month, day, hour, minute, second, milli⟩
  have hfirst := daysIn_bounds (month + 1)
  have hjanuary := daysIn_bounds 1
  simp only [isValid, Bool.and_eq_true, decide_eq_true_eq] at ht
  -- One case for each carry, from none at all to that of the year.
  simp only [next, nextSecond, nextMinute, nextHour, nextDay, nextMonth]
  repeat' split
  all_goals simp only [isValid, Bool.and_eq_true, decide_eq_true_eq]
  · omega
  · omega
  · omega
  · omega
  · omega
  · omega
  · omega

/-- Counting up does not get into a leap second. -/
theorem second_next_le {t : LogTime} (ht : t.second ≤ 59) : t.next.second ≤ 59 := by
  simp only [next, nextSecond, nextMinute, nextHour, nextDay, nextMonth]
  repeat' split
  all_goals dsimp only
  all_goals omega

theorem isRegular_next {t : LogTime} (ht : t.isRegular = true) : t.next.isRegular = true := by
  rw [isRegular, Bool.and_eq_true, decide_eq_true_eq] at ht ⊢
  exact ⟨isValid_next ht.1, second_next_le ht.2⟩

/-- A time is at or after the next millisecond exactly if it is after this one, so no regular
    time lies in between. A rank is the digits of a stamp as one number, and leaves gaps where a
    field is full. The next millisecond lies behind such a gap, in which no time exists, and the
    carries are compared field by field. -/
theorem next_le_iff {t u : LogTime} (ht : t.isRegular = true) (hlast : t ≠ last)
    (hu : u.isRegular = true) : t.next.rank ≤ u.rank ↔ t.rank < u.rank := by
  rcases t with ⟨month, day, hour, minute, second, milli⟩
  rcases u with ⟨month', day', hour', minute', second', milli'⟩
  -- In the same month there are the same days.
  have hsame : month = month' → daysIn month = daysIn month' := congrArg daysIn
  have hbounds := daysIn_bounds month
  have hbounds' := daysIn_bounds month'
  have hdecember : daysIn 12 = 31 := rfl
  simp only [isRegular, isValid, Bool.and_eq_true, decide_eq_true_eq] at ht hu
  simp only [last, ne_eq, LogTime.mk.injEq, not_and] at hlast
  simp only [next, nextSecond, nextMinute, nextHour, nextDay, nextMonth]
  -- The carries are those of the program: each field that is full starts over and adds one to
  -- the field in front.
  repeat' split
  all_goals simp only [rank]
  · omega
  · omega
  · omega
  · omega
  · omega
  · omega
  · -- The carry of the year is that of the very last millisecond.
    have hmonth : month = 12 := by
      omega
    subst hmonth
    omega

theorem length_padded (width : Nat) {n : Nat} (hn : n < 10 ^ width) (hwidth : 0 < width) :
    (padded width n).length = width := by
  have hdigits := (Nat.length_toDigits_le_iff (b := 10) (by omega) hwidth).mpr hn
  simp only [padded, List.length_append, List.length_replicate]
  omega

theorem isDigit_of_mem_padded (width n : Nat) {c : Char} (hc : c ∈ padded width n) :
    Text.isDigit c = true := by
  rcases List.mem_append.mp hc with hc | hc
  · rw [List.eq_of_mem_replicate hc]
    rfl
  · exact isDigit_of_mem_decimalDigits hc

theorem digitsValue_padded (width n : Nat) : Text.digitsValue (padded width n) = n := by
  rw [Text.digitsValue_eq_ofDigitChars, padded, Nat.ofDigitChars_append,
    Nat.ofDigitChars_replicate_zero, Nat.mul_zero]
  exact Nat.ofDigitChars_ten_toDigits

/-- A number in two places. -/
theorem padded_two {n : Nat} (hn : n < 100) :
    ∃ a b, padded 2 n = [a, b] ∧ Text.isDigit a = true ∧ Text.isDigit b = true ∧
      Text.digitsValue [a, b] = n := by
  rcases List.length_eq_two.mp (length_padded 2 hn (by omega)) with ⟨a, b, hab⟩
  have hdigit : ∀ c ∈ padded 2 n, Text.isDigit c = true := fun c =>
    isDigit_of_mem_padded 2 n
  have hvalue := digitsValue_padded 2 n
  rw [hab] at hdigit hvalue
  simp only [List.forall_mem_cons] at hdigit
  exact ⟨a, b, hab, hdigit.1, hdigit.2.1, hvalue⟩

/-- A number in three places. -/
theorem padded_three {n : Nat} (hn : n < 1000) :
    ∃ a b c, padded 3 n = [a, b, c] ∧ Text.isDigit a = true ∧ Text.isDigit b = true ∧
      Text.isDigit c = true ∧ Text.digitsValue [a, b, c] = n := by
  rcases List.length_eq_three.mp (length_padded 3 hn (by omega)) with ⟨a, b, c, habc⟩
  have hdigit : ∀ c ∈ padded 3 n, Text.isDigit c = true := fun c =>
    isDigit_of_mem_padded 3 n
  have hvalue := digitsValue_padded 3 n
  rw [habc] at hdigit hvalue
  simp only [List.forall_mem_cons] at hdigit
  exact ⟨a, b, c, habc, hdigit.1, hdigit.2.1, hdigit.2.2.1, hvalue⟩

/-- A stamp has the shape of one, and its fields are those of the time. Once every field is known
    to be two or three digits, the stamp is a list of eighteen characters, and the rest is
    computed. -/
theorem shape_chars {t : LogTime} (h : t.isValid = true) :
    t.chars.length = template.length ∧ fitsTemplate template t.chars = true ∧
      ofFields t.chars = t := by
  have hbounds := daysIn_bounds t.month
  simp only [isValid, Bool.and_eq_true, decide_eq_true_eq] at h
  rcases padded_two (n := t.month) (by omega) with ⟨m, m', hmonth, hm, hm', hmonthValue⟩
  rcases padded_two (n := t.day) (by omega) with ⟨d, d', hday, hd, hd', hdayValue⟩
  rcases padded_two (n := t.hour) (by omega) with ⟨o, o', hhour, ho, ho', hhourValue⟩
  rcases padded_two (n := t.minute) (by omega) with ⟨u, u', hminute, hu, hu', hminuteValue⟩
  rcases padded_two (n := t.second) (by omega) with ⟨s, s', hsecond, hs, hs', hsecondValue⟩
  rcases padded_three (n := t.milli) (by omega)
    with ⟨x, x', x'', hmilli, hx, hx', hx'', hmilliValue⟩
  -- All eighteen characters are known by now.
  have hchars :
      t.chars = [m, m', '-', d, d', ' ', o, o', ':', u, u', ':', s, s', '.', x, x', x''] := by
    rw [chars, hmonth, hday, hhour, hminute, hsecond, hmilli]
    rfl
  rw [hchars]
  refine ⟨rfl, ?_, ?_⟩
  · have htemplate : template = ['0', '0', '-', '0', '0', ' ', '0', '0', ':', '0', '0', ':', '0',
        '0', '.', '0', '0', '0'] := by
      decide
    simp only [htemplate, fitsTemplate, hm, hm', hd, hd', ho, ho', hu, hu', hs, hs', hx, hx', hx'',
      if_true, Char.reduceEq, if_false, decide_true, Bool.and_self]
  · simp only [ofFields, field, List.drop_zero, List.drop_succ_cons, List.take_succ_cons,
      List.take_zero, hmonthValue, hdayValue, hhourValue, hminuteValue, hsecondValue, hmilliValue]

theorem stampList_chars {t : LogTime} (h : t.isValid = true) (rest : List Char) :
    stampList (t.chars ++ rest) = t.chars := by
  have hshape := shape_chars h
  rw [stampList, ← hshape.1, List.take_left, if_pos hshape.2.1]

theorem ofStamp?_chars {t : LogTime} (h : t.isValid = true) : ofStamp? t.chars = some t := by
  have hshape := shape_chars h
  rw [ofStamp?, hshape.2.1, hshape.2.2, h]
  rfl

end LogTime

end AccelMonitor
