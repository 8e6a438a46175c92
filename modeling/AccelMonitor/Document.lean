import AccelMonitor.Number.Written

/-!
# Documents

A machine-readable form of nested values, with one value or field per line.

A document is a text, a whole number, a binary64 number or an object. Objects
keep the order of their fields, indent them by two more spaces than themselves,
and are written on one line if they have none. Numbers that are not finite have
no notation and are written as `null`. In a text, quotes, backslashes and
control characters are escaped; everything else stands for itself.

## Main definitions

* `Document`: The values.
* `Document.quoted`: A text with its quotes.
* `Document.text`: The whole text of a document.

## Theorems

* `quotedChar_self`: An ordinary character stands for itself.
-/

namespace AccelMonitor

/-- A nested value. -/
inductive Document where
  /-- A text. -/
  | string (s : String)
  | whole (n : Nat)
  | number (x : Binary64)
  /-- Named values, in order. -/
  | object (fields : List (String × Document))

namespace Document

/-- A hexadecimal digit. -/
def hexDigit (n : Nat) : Char :=
  Nat.digitChar n

/-- The escape of a control character by its number. -/
def controlEscape (c : Char) : List Char :=
  ['\\', 'u', '0', '0', hexDigit (c.toNat / 16), hexDigit (c.toNat % 16)]

/-- A character inside a quoted text. -/
def quotedChar (c : Char) : List Char :=
  if c = '"' then ['\\', '"']
  else if c = '\\' then ['\\', '\\']
  else if c = '\x08' then ['\\', 'b']
  else if c = '\t' then ['\\', 't']
  else if c = '\n' then ['\\', 'n']
  else if c = '\x0c' then ['\\', 'f']
  else if c = '\r' then ['\\', 'r']
  else if c.toNat < 0x20 then controlEscape c
  else [c]

/-- A text with its quotes. -/
def quoted (s : String) : List Char :=
  '"' :: s.toList.flatMap quotedChar ++ ['"']

/-- The blanks in front of a line at a depth. -/
def indent (depth : Nat) : List Char :=
  List.replicate (2 * depth) ' '

/-- An object around the text of its fields. -/
def enclose (depth : Nat) (fields : List Char) : List Char :=
  match fields with
  | [] => ['\x7b', '\x7d']
  | _ => '\x7b' :: '\n' :: fields ++ indent depth ++ ['\x7d']

mutual

/-- The text of a document at a depth. -/
def chars (depth : Nat) : Document → List Char
  | string s => quoted s
  | whole n => decimalDigits n
  | number x => (x.scientific?.getD "null").toList
  | object fields => enclose depth (fieldChars (depth + 1) fields)

/-- The text of some fields at a depth. -/
def fieldChars (depth : Nat) : List (String × Document) → List Char
  | [] => []
  | (name, value) :: rest =>
    indent depth ++ quoted name ++ [':', ' '] ++ chars depth value
      ++ (if rest.isEmpty then ['\n'] else [',', '\n']) ++ fieldChars depth rest

end

/-- The whole text of a document, which ends with a line break. -/
def text (d : Document) : String :=
  String.ofList (chars 0 d ++ ['\n'])

/-- An ordinary character stands for itself. -/
theorem quotedChar_self {c : Char} (hq : c ≠ '"') (hb : c ≠ '\\') (h : 0x20 ≤ c.toNat) :
    quotedChar c = [c] := by
  have hne : ∀ d : Char, d.toNat < 0x20 → c ≠ d := fun d hd e => by
    rw [e] at h
    omega
  rw [quotedChar, if_neg hq, if_neg hb, if_neg (hne _ (by decide)), if_neg (hne _ (by decide)),
    if_neg (hne _ (by decide)), if_neg (hne _ (by decide)), if_neg (hne _ (by decide)),
    if_neg (Nat.not_lt.mpr h)]

end Document

end AccelMonitor
