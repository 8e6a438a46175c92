import AccelMonitor.Number.Binary64
import AccelMonitor.Text.Digit

/-!
# Reading a Number

The decimal notation of seconds and percentages, and the value it stands for.

A literal is an optional sign and then digits, which may have a point before,
after or among them, and may be followed by an exponent; or, in any mixture of
cases, one of the words for infinity and for the value that is not a number.
Nothing may stand before or after it. `Literal.ofText?` reads the notation into
its parts and decides nothing about size; `Literal.value` is the nearest value
of the binary format to the exact decimal, found with one rounding.

An exponent can be far too large to be computed with. A decimal whose leading
digit stands far above the largest value is infinite, and one whose leading
digit stands far below the smallest is zero, so those are decided first.

## Main definitions

* `Literal`: The parts of a decimal literal.
* `Literal.ofText?`: The literal that a text writes.
* `Literal.value`: The nearest value of the binary format.
* `NumberFault`: Why a text is not a number.
* `Binary64.read`: The value that a text writes.

## Theorems

* `value_isNumber`: A literal with digits is always a number.
-/

namespace AccelMonitor

/-- A decimal literal: `± significand · 10 ^ exponent`. -/
structure Literal where
  /-- A minus sign stands in front. -/
  negative : Bool
  /-- All digits read as one number, without the point. -/
  significand : Nat
  /-- The written exponent less the number of digits after the point. -/
  exponent : Int
deriving DecidableEq

namespace Literal

/-- A sign and what follows it; a text without a sign is not negative. -/
def splitSign : List Char → Bool × List Char
  | '-' :: rest => (true, rest)
  | '+' :: rest => (false, rest)
  | s => (false, s)

/-- The signed number written by an exponent's sign and digits, which must be
    all of the text. -/
def exponentOf? (s : List Char) : Option Int :=
  let (negative, digits) := splitSign s
  if digits ≠ [] ∧ digits.all Text.isDigit then
    some (if negative then -(Text.digitsValue digits : Int) else Text.digitsValue digits)
  else
    none

/-- The exponent that a text after the digits holds, zero if it is empty. -/
def exponentPart? : List Char → Option Int
  | [] => some 0
  | c :: rest => if c = 'e' ∨ c = 'E' then exponentOf? rest else none

/-- The digits after a point, if one stands here, and the rest. -/
def fraction : List Char → List Char × List Char
  | '.' :: rest => (rest.takeWhile Text.isDigit, rest.dropWhile Text.isDigit)
  | s => ([], s)

/-- The literal that a text without a sign writes. -/
def unsigned? (negative : Bool) (s : List Char) : Option Literal :=
  let whole := s.takeWhile Text.isDigit
  let (part, rest) := fraction (s.dropWhile Text.isDigit)
  if whole = [] ∧ part = [] then none
  else (exponentPart? rest).map fun e =>
    ⟨negative, Text.digitsValue (whole ++ part), e - part.length⟩

/-- The literal that a text writes. -/
def ofText? (s : List Char) : Option Literal :=
  let (negative, rest) := splitSign s
  unsigned? negative rest

/-- The magnitude nearest to `significand · 10 ^ exponent`. -/
def magnitude (significand : Nat) (exponent : Int) : Magnitude :=
  if significand = 0 then .zero
  -- Beyond `10 ^ 400`, and below `10 ^ (-400)`, the digits do not matter.
  else if 400 < exponent then .infinity
  else if exponent < -(400 + (Nat.toDigits 10 significand).length) then .zero
  else .nearest (significand * tenTo exponent.toNat * unitsPerOne) (tenTo (-exponent).toNat)

/-- The value of the binary format nearest to a literal. -/
def value (l : Literal) : Binary64 :=
  .number l.negative (magnitude l.significand l.exponent)

/-- A literal with digits is always a number, however large. -/
theorem value_isNumber (l : Literal) : l.value.isNumber = true := rfl

end Literal

/-- Why a text is not a number. -/
inductive NumberFault where
  /-- There is no text. -/
  | empty
  /-- The text is not in the notation. -/
  | malformed
deriving DecidableEq

namespace NumberFault

/-- The fault in words. -/
def message : NumberFault → String
  | empty => "cannot parse float from empty string"
  | malformed => "invalid float literal"

end NumberFault

namespace Binary64

/-- An ASCII capital in its small form; any other character as it is. -/
def lowerAscii (c : Char) : Char :=
  if 'A' ≤ c ∧ c ≤ 'Z' then Char.ofNat (c.toNat + 32) else c

/-- The value that a word stands for. -/
def named? (negative : Bool) (s : List Char) : Option Binary64 :=
  let word := s.map lowerAscii
  if word = "inf".toList ∨ word = "infinity".toList then some (number negative .infinity)
  else if word = "nan".toList then some nan
  else none

/-- The value that a text writes, as a decimal or as a word. -/
def readList (s : List Char) : Except NumberFault Binary64 :=
  if s = [] then .error .empty
  else
    let (negative, rest) := Literal.splitSign s
    match Literal.unsigned? negative rest, named? negative rest with
    | some l, _ => .ok l.value
    | none, some v => .ok v
    | none, none => .error .malformed

/-- The value that a text writes, as a decimal or as a word. -/
def read (s : String) : Except NumberFault Binary64 :=
  readList s.toList

end Binary64

end AccelMonitor
