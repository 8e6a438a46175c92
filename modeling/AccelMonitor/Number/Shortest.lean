import AccelMonitor.Number.Binary64

/-!
# The Shortest Decimal

The fewest digits that still tell a value from its neighbours.

A reader of a decimal goes to the nearest value of the binary format. The
decimals that lead back to one value therefore fill the interval between the
midpoints to its two neighbours, with the midpoints included exactly when the
value has even rank, since a tie goes there. Of the decimals in that interval
the shortest are wanted, and of those the one nearest to the value. Two of them
can be equally near, and then a notation says which one it takes.

With one digit, the candidates are the two points of a coarse decimal grid
around the value; with two digits, of a grid ten times finer; and so on. If any
point of a grid lies in the interval then one of these two does, because they
are the closest on either side. Seventeen digits always suffice.

## Main definitions

* `Decimal`: A number of decimal digits and an exponent.
* `TieRule`: Which of two equally near decimals is taken.
* `Magnitude.shortest`: The shortest decimal that leads back to a magnitude.
-/

namespace AccelMonitor

/-- The number `significand · 10 ^ exponent`. -/
structure Decimal where
  /-- The digits, as one number. -/
  significand : Nat
  /-- The power of ten that the last digit stands for. -/
  exponent : Int
deriving DecidableEq

/-- Which of two equally near decimals is taken. -/
inductive TieRule where
  /-- The one whose last digit is even. -/
  | even
  /-- The larger one. -/
  | upward
deriving DecidableEq

/-- The natural number nearest to `num / den` by a rule for halves. -/
def TieRule.round : TieRule → Nat → Nat → Nat
  | even, num, den => roundHalfEven num den
  | upward, num, den => roundHalfUp num den

namespace Magnitude

/-- The interval of the numbers that are read as a magnitude, by its two ends in
    half units, and whether the ends belong to it. -/
structure ReadInterval where
  /-- The lower end in half units. -/
  lower : Nat
  /-- The upper end in half units. -/
  upper : Nat
  /-- A tie at an end goes to this magnitude. -/
  closed : Bool

/-- The interval of the numbers that are read as the magnitude. -/
def readInterval (m : Magnitude) : ReadInterval :=
  ⟨unitsAt (m.rank - 1) + m.units, m.units + unitsAt (m.rank + 1), m.rank % 2 == 0⟩

/-- The number `num / den` of half units lies in the interval. -/
def ReadInterval.contains (r : ReadInterval) (num den : Nat) : Bool :=
  if r.closed then r.lower * den ≤ num && num ≤ r.upper * den
  else r.lower * den < num && num < r.upper * den

/-- The place of a magnitude's leading digit: one more than the exponent of the
    power of ten below it. -/
def leadingPlace (m : Magnitude) : Int :=
  (Nat.toDigits 10 (m.units * tenTo 400 / unitsPerOne)).length - 400

/-- The nearer of the two grid points around `num / den` that `fits` accepts. -/
def nearerPoint (tie : TieRule) (num den : Nat) (fits : Nat → Bool) : Option Nat :=
  let below := num / den
  match fits below, fits (below + 1) with
  | true, true => some (tie.round num den)
  | true, false => some below
  | false, true => some (below + 1)
  | false, false => none

/-- The decimal with its last digit at the place `exponent` that is nearest to the
    magnitude and leads back to it. -/
def decimalAt? (tie : TieRule) (m : Magnitude) (exponent : Int) : Option Decimal :=
  let scale := tenTo (-exponent).toNat
  let step := unitsPerOne * tenTo exponent.toNat
  (nearerPoint tie (m.units * scale) step fun n =>
    m.readInterval.contains (2 * n * step) scale).map fun n => ⟨n, exponent⟩

/-- The decimal of the fewest digits that leads back to the magnitude, and of those
    the nearest. -/
def shortest (tie : TieRule) (m : Magnitude) : Decimal :=
  let place := m.leadingPlace
  -- Seventeen digits always find a point, so the default is never used.
  ((List.range 17).findSome? fun (i : Nat) => m.decimalAt? tie (place - 1 - i)).getD ⟨0, 0⟩

end Magnitude

end AccelMonitor
