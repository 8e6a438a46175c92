import AccelMonitor.Number.Powers

/-!
# Decimal Digits

Two readings of "digit" that a log line can be held to.

A pattern's digit is any character of the Unicode category `Nd`: a decimal
digit of some script, always one of ten consecutive characters. A number that
is to be evaluated is stricter and is written in the ten ASCII digits only. A
line may therefore have the right shape and still hold no number, and the two
readings are kept apart here for that reason.

Reading an unsigned number also has a bound: a field of a given width holds
only the numbers below its limit, and a larger one is not a number at all.

## Main definitions

* `Text.isDecimal`: The character is a decimal digit of some script.
* `Text.isDigit`: The character is an ASCII digit.
* `Text.digitsValue`: The number that a list of ASCII digits writes.
* `Text.readNat?`: An unsigned decimal number below a bound.

## Theorems

* `isDecimal_of_isDigit`: An ASCII digit is a decimal digit.
* `readNat?_lt`: A number that was read is below the bound.
-/

namespace AccelMonitor

namespace Text

/-- The first digit and the number of digits of each run of the Unicode category
    `Nd`. -/
def decimalRuns : List (Nat × Nat) :=
  [(0x30, 10), (0x660, 10), (0x6f0, 10), (0x7c0, 10), (0x966, 10), (0x9e6, 10), (0xa66, 10),
    (0xae6, 10), (0xb66, 10), (0xbe6, 10), (0xc66, 10), (0xce6, 10), (0xd66, 10), (0xde6, 10),
    (0xe50, 10), (0xed0, 10), (0xf20, 10), (0x1040, 10), (0x1090, 10), (0x17e0, 10),
    (0x1810, 10), (0x1946, 10), (0x19d0, 10), (0x1a80, 10), (0x1a90, 10), (0x1b50, 10),
    (0x1bb0, 10), (0x1c40, 10), (0x1c50, 10), (0xa620, 10), (0xa8d0, 10), (0xa900, 10),
    (0xa9d0, 10), (0xa9f0, 10), (0xaa50, 10), (0xabf0, 10), (0xff10, 10), (0x104a0, 10),
    (0x10d30, 10), (0x10d40, 10), (0x11066, 10), (0x110f0, 10), (0x11136, 10), (0x111d0, 10),
    (0x112f0, 10), (0x11450, 10), (0x114d0, 10), (0x11650, 10), (0x116c0, 10), (0x116d0, 20),
    (0x11730, 10), (0x118e0, 10), (0x11950, 10), (0x11bf0, 10), (0x11c50, 10), (0x11d50, 10),
    (0x11da0, 10), (0x11f50, 10), (0x16130, 10), (0x16a60, 10), (0x16ac0, 10), (0x16b50, 10),
    (0x16d70, 10), (0x1ccf0, 10), (0x1d7ce, 50), (0x1e140, 10), (0x1e2f0, 10), (0x1e4f0, 10),
    (0x1e5f1, 10), (0x1e950, 10), (0x1fbf0, 10)]

/-- The character is a decimal digit of some script. -/
def isDecimal (c : Char) : Bool :=
  decimalRuns.any fun r => r.1 ≤ c.toNat && c.toNat < r.1 + r.2

/-- The character is an ASCII digit. -/
def isDigit (c : Char) : Bool :=
  '0' ≤ c && c ≤ '9'

/-- An ASCII digit is a decimal digit: its run is the first of the table. -/
theorem isDecimal_of_isDigit {c : Char} (h : isDigit c = true) : isDecimal c = true := by
  simp only [isDigit, Bool.and_eq_true, decide_eq_true_eq] at h
  have hlo : 0x30 ≤ c.toNat := h.1
  have hhi : c.toNat ≤ 0x39 := h.2
  -- The run of the ASCII digits is the first of the table.
  simp only [isDecimal, decimalRuns, List.any_cons, Bool.or_eq_true, Bool.and_eq_true,
    decide_eq_true_eq]
  exact Or.inl ⟨hlo, by omega⟩

/-- The value of an ASCII digit. -/
def digitValue (c : Char) : Nat :=
  c.toNat - 0x30

/-- The number that a list of ASCII digits writes. -/
def digitsValue (s : List Char) : Nat :=
  s.foldl (fun n c => 10 * n + digitValue c) 0

/-- What follows the plus sign that an unsigned number may start with. -/
def afterPlus : List Char → List Char
  | '+' :: rest => rest
  | s => s

/-- An unsigned decimal number below `bound`. One plus sign may stand in front. -/
def readNat? (bound : Nat) (s : List Char) : Option Nat :=
  let digits := afterPlus s
  if digits ≠ [] ∧ digits.all isDigit ∧ digitsValue digits < bound then
    some (digitsValue digits)
  else
    none

/-- A number that was read is below the bound. -/
theorem readNat?_lt {bound n : Nat} {s : List Char} (h : readNat? bound s = some n) :
    n < bound := by
  rw [readNat?] at h
  split at h
  case isTrue hb => exact Option.some.inj h ▸ hb.2.2
  case isFalse => cases h

/-- The limit of an unsigned 64-bit field. -/
def limit64 : Nat :=
  twoTo 64

/-- The limit of an unsigned 32-bit field. -/
def limit32 : Nat :=
  twoTo 32

end Text

end AccelMonitor
