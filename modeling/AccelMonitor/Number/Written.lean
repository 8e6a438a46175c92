import AccelMonitor.Number.Shortest

/-!
# Writing a Number

The notations in which a value leaves the program.

There are three. `fixed` has a given number of decimal places and rounds the
exact value, a half to the even digit. `plain` has the fewest digits that read
back, always written out in full with the point at its place. `scientific` has
the same digits but keeps to one digit before the point when the number is very
large or very small, which is the form of a machine-readable report; there a
whole number keeps one zero after the point, and an exponent always has its
sign.

A negative zero, and whatever is rounded to it, keeps its sign in every
notation.

## Main definitions

* `natText`: A natural number.
* `Binary64.fixed`: The value with a given number of decimal places.
* `Binary64.plain`: The shortest digits, written out in full.
* `Binary64.scientific?`: The shortest digits for a report, if the value is
  finite.
-/

namespace AccelMonitor

/-- The decimal digits of a number. -/
def decimalDigits (n : Nat) : List Char :=
  Nat.toDigits 10 n

/-- The decimal text of a number. -/
def natText (n : Nat) : String :=
  String.ofList (decimalDigits n)

/-- The text on the left of which zeros are put until it is `width` long. -/
def padZeros (width : Nat) (s : List Char) : List Char :=
  List.replicate (width - s.length) '0' ++ s

namespace Decimal

/-- The digits without the zeros at their end. -/
def digits (d : Decimal) : List Char :=
  ((decimalDigits d.significand).reverse.dropWhile (· == '0')).reverse

/-- The number of digits before the point; negative if zeros follow the point
    first. -/
def pointPlace (d : Decimal) : Int :=
  (decimalDigits d.significand).length + d.exponent

/-- The digits with the point at its place. What a whole number ends in is
    given. -/
def positional (d : Decimal) (wholeEnd : List Char) : List Char :=
  let ds := d.digits
  let place := d.pointPlace
  if place ≤ 0 then ['0', '.'] ++ List.replicate (-place).toNat '0' ++ ds
  else if place.toNat < ds.length then ds.take place.toNat ++ ['.'] ++ ds.drop place.toNat
  else ds ++ List.replicate (place.toNat - ds.length) '0' ++ wholeEnd

/-- One digit before the point and a signed exponent. -/
def withExponent (d : Decimal) : List Char :=
  let e := d.pointPlace - 1
  let mark := if e < 0 then ['e', '-'] else ['e', '+']
  let exponent := mark ++ decimalDigits e.natAbs
  match d.digits with
  | [] => '0' :: exponent
  | [c] => c :: exponent
  | c :: rest => c :: '.' :: rest ++ exponent

end Decimal

namespace Binary64

/-- A minus sign, if the value has one. -/
def signText (negative : Bool) : List Char :=
  if negative then ['-'] else []

/-- A number of the last of `places` decimal places, with the point in it. -/
def insertPoint (places n : Nat) : List Char :=
  let ds := padZeros (places + 1) (decimalDigits n)
  if places = 0 then ds else ds.take (ds.length - places) ++ ['.'] ++ ds.drop (ds.length - places)

/-- The value with `places` decimal places, a half rounded to the even digit. -/
def fixed (places : Nat) : Binary64 → String
  | nan => "NaN"
  | number negative m =>
    String.ofList (signText negative ++
      if m.isFinite then insertPoint places (roundHalfEven (m.units * tenTo places) unitsPerOne)
      else "inf".toList)

/-- The shortest digits that read back, the larger ones of two that are equally near,
    written out in full. -/
def plain : Binary64 → String
  | nan => "NaN"
  | number negative m =>
    String.ofList (signText negative ++
      if !m.isFinite then "inf".toList
      else if m.rank = 0 then ['0']
      else (m.shortest .upward).positional [])

/-- The shortest digits that read back, the even ones of two that are equally near,
    written out from the fifth place after the point up to sixteen places before it and
    with an exponent beyond. -/
def scientific? : Binary64 → Option String
  | nan => none
  | number negative m =>
    if !m.isFinite then none
    else if m.rank = 0 then some (String.ofList (signText negative ++ ['0', '.', '0']))
    else
      let d := m.shortest .even
      let place := d.pointPlace
      some (String.ofList (signText negative ++
        if -5 < place ∧ place ≤ 16 then d.positional ['.', '0'] else d.withExponent))

end Binary64

end AccelMonitor
