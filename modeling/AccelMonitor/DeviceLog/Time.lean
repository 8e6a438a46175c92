import AccelMonitor.Text.Digit

/-!
# Device Log Times

The time stamp of a device log line, as a point of a year without a number.

A line starts with month, day, hour, minute, second and millisecond in eighteen
ASCII characters. The year is missing, so the calendar is that of a leap year,
in which every day that occurs in any year exists. A minute may have a sixtieth
second, a leap second; it exists but is never reached by counting up from the
second before it.

`next` is the first millisecond after a time, and the last millisecond of the
year is followed by the first one.

## Main definitions

* `LogTime`: A point of the year.
* `LogTime.stamp`: The time stamp that a line starts with, if it does.
* `LogTime.ofStamp?`: The point that a time stamp names, if it exists.
* `LogTime.chars`: The time stamp of a point.
* `LogTime.next`: The next millisecond.

## Theorems

* `stamp_eq_nil_or_take`: A time stamp is what the line starts with.
* `next_milli_lt`: A next millisecond is again a millisecond.
-/

namespace AccelMonitor

/-- A point of a year, as the device writes it in front of a line. There is no year in it, so
    the first time of a year is smaller than the last one of the year before. -/
structure LogTime where
  /-- From 1 to 12. -/
  month : Nat
  /-- From 1 to the number of days in the month. -/
  day : Nat
  /-- From 0 to 23. -/
  hour : Nat
  /-- From 0 to 59. -/
  minute : Nat
  /-- From 0 to 59, or 60 in a leap second. -/
  second : Nat
  /-- From 0 to 999. -/
  milli : Nat
deriving DecidableEq

namespace LogTime

/-- The shape of a time stamp. A zero stands for any digit. -/
def template : List Char :=
  "00-00 00:00:00.000".toList

/-- The text has the shape of a template in which a zero stands for any digit. -/
def fitsTemplate : List Char → List Char → Bool
  | [], [] => true
  | t :: ts, c :: cs => (if t = '0' then Text.isDigit c else c = t) && fitsTemplate ts cs
  | _, _ => false

/-- The time stamp that a line starts with, empty if it starts with none. -/
def stampList (line : List Char) : List Char :=
  let start := line.take template.length
  if fitsTemplate template start then start else []

/-- The time stamp that a line starts with, empty if it starts with none. -/
def stamp (line : String) : String :=
  String.ofList (stampList line.toList)

/-- A time stamp is what the line starts with. -/
theorem stamp_eq_nil_or_take (line : List Char) :
    stampList line = [] ∨ stampList line = line.take template.length := by
  rw [stampList]
  split
  · exact Or.inr rfl
  · exact Or.inl rfl

/-- The number of days in a month of a leap year. -/
def daysIn : Nat → Nat
  | 2 => 29
  | 4 | 6 | 9 | 11 => 30
  | _ => 31

/-- The point exists in the calendar. -/
def isValid (t : LogTime) : Bool :=
  1 ≤ t.month && t.month ≤ 12 && 1 ≤ t.day && t.day ≤ daysIn t.month && t.hour ≤ 23
    && t.minute ≤ 59 && t.second ≤ 60 && t.milli ≤ 999

/-- The number written in a time stamp from a position on. -/
def field (s : List Char) (position width : Nat) : Nat :=
  Text.digitsValue ((s.drop position).take width)

/-- The point that the fields of a time stamp name, whether it exists or not. -/
def ofFields (s : List Char) : LogTime :=
  { month := field s 0 2, day := field s 3 2, hour := field s 6 2, minute := field s 9 2
    second := field s 12 2, milli := field s 15 3 }

/-- The point that a time stamp names, if it has the shape of one and the point
    exists. -/
def ofStamp? (s : List Char) : Option LogTime :=
  if fitsTemplate template s && (ofFields s).isValid then some (ofFields s) else none

/-- A number with zeros in front of it up to a width. -/
def padded (width n : Nat) : List Char :=
  let digits := Nat.toDigits 10 n
  List.replicate (width - digits.length) '0' ++ digits

/-- The time stamp of a point. -/
def chars (t : LogTime) : List Char :=
  padded 2 t.month ++ ['-'] ++ padded 2 t.day ++ [' '] ++ padded 2 t.hour ++ [':']
    ++ padded 2 t.minute ++ [':'] ++ padded 2 t.second ++ ['.'] ++ padded 3 t.milli

/-- The time stamp of a point. -/
def text (t : LogTime) : String :=
  String.ofList t.chars

/-- The start of the next month. -/
def nextMonth (t : LogTime) : LogTime :=
  ⟨if t.month < 12 then t.month + 1 else 1, 1, 0, 0, 0, 0⟩

/-- The start of the next day. -/
def nextDay (t : LogTime) : LogTime :=
  if t.day < daysIn t.month then ⟨t.month, t.day + 1, 0, 0, 0, 0⟩ else t.nextMonth

/-- The start of the next hour. -/
def nextHour (t : LogTime) : LogTime :=
  if t.hour < 23 then ⟨t.month, t.day, t.hour + 1, 0, 0, 0⟩ else t.nextDay

/-- The start of the next minute. -/
def nextMinute (t : LogTime) : LogTime :=
  if t.minute < 59 then ⟨t.month, t.day, t.hour, t.minute + 1, 0, 0⟩ else t.nextHour

/-- The start of the next second. A leap second is not reached this way. -/
def nextSecond (t : LogTime) : LogTime :=
  if t.second < 59 then ⟨t.month, t.day, t.hour, t.minute, t.second + 1, 0⟩ else t.nextMinute

/-- The next millisecond. -/
def next (t : LogTime) : LogTime :=
  if t.milli < 999 then { t with milli := t.milli + 1 } else t.nextSecond

/-- A next millisecond is again a millisecond. -/
theorem next_milli_lt (t : LogTime) : t.next.milli < 1000 := by
  simp only [next, nextSecond, nextMinute, nextHour, nextDay, nextMonth]
  repeat' split
  all_goals dsimp only
  all_goals omega

end LogTime

end AccelMonitor
