import AccelMonitor.Text.Hidden

/-!
# Quoted Text

How a message shows a text whose ends matter.

A message such as "unknown probe" has to show a name that may be empty, end in
a blank or hold a control character, so the name is written between double
quotes with escapes. The quote and the backslash get a backslash in front, four
controls have letters of their own, and every other hidden character is written
as its number. Whatever is visible by itself stays as it is, of any script, and
so does the apostrophe.

## Main definitions

* `Text.escapeChar`: The written form of one character.
* `Text.quoted`: A text between quotes.

## Theorems

* `escapeChar_self`: A visible character is written as itself.
-/

namespace AccelMonitor

namespace Text

/-- A character written as its number in base sixteen. -/
def escapeNumber (c : Char) : List Char :=
  ['\\', 'u', '\x7b'] ++ Nat.toDigits 16 c.toNat ++ ['\x7d']

/-- The written form of one character of a quoted text. -/
def escapeChar (c : Char) : List Char :=
  match c with
  | '\x00' => ['\\', '0']
  | '\t' => ['\\', 't']
  | '\r' => ['\\', 'r']
  | '\n' => ['\\', 'n']
  | '"' => ['\\', '"']
  | '\\' => ['\\', '\\']
  | _ => if isHidden c then escapeNumber c else [c]

/-- A visible character other than the quote and the backslash is written as
    itself. -/
theorem escapeChar_self {c : Char} (h : isHidden c = false) (hq : c ≠ '"') (hb : c ≠ '\\') :
    escapeChar c = [c] := by
  unfold escapeChar
  split
  · exact absurd h (by decide)
  · exact absurd h (by decide)
  · exact absurd h (by decide)
  · exact absurd h (by decide)
  · exact absurd rfl hq
  · exact absurd rfl hb
  · rw [h, if_neg Bool.false_ne_true]

/-- A text between double quotes, escaped. -/
def quoted (s : String) : String :=
  String.ofList ('"' :: s.toList.flatMap escapeChar ++ ['"'])

end Text

end AccelMonitor
