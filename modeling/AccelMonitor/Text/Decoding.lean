/-!
# Decoding Bytes

How the output of a process becomes text, whatever bytes it holds.

The bytes are read as UTF-8. A sequence that cannot be part of any text is
replaced by one replacement character, and reading resumes at the first byte
that does not belong to it: the longest beginning of a character that went wrong
counts as one mistake, and a byte that cannot begin a character as another. No
byte stops the reading, so every output has a text.

The decoder walks the bytes with a small state: either a character may begin
here, or a character has begun and so many more bytes are due. The first of
those is the only one with a narrower range, which is what keeps overlong forms,
surrogates and numbers beyond the last character out.

## Main definitions

* `Text.Decoding`: Where the decoder is inside a character.
* `Text.decode`: The text of a list of bytes.

## Theorems

* `decode_ascii`: An ASCII byte is its own character.
-/

namespace AccelMonitor

namespace Text

/-- What stands for bytes that are no text. -/
def replacement : Char :=
  '\ufffd'

/-- Where the decoder is. -/
inductive Decoding where
  /-- A character may begin here. -/
  | start
  /-- So many bytes of a character are due. The value so far is given, and the range
      that the next byte has to lie in. -/
  | inside (due : Nat) (value lo hi : Nat)

/-- What a byte at the start of a character does: it is a character by itself, it
    begins one, or it can do neither. -/
inductive Opening where
  | single (c : Char)
  | begins (state : Decoding)
  | invalid

/-- What a byte at the start of a character does. -/
def opening (b : Nat) : Opening :=
  if b < 0x80 then .single (Char.ofNat b)
  -- Bytes from inside a character, and two that only begin overlong forms.
  else if b < 0xc2 then .invalid
  else if b < 0xe0 then .begins (.inside 1 (b - 0xc0) 0x80 0xbf)
  -- Overlong forms would begin with `0xe0` and surrogates with `0xed`.
  else if b < 0xf0 then
    .begins (.inside 2 (b - 0xe0)
      (if b = 0xe0 then 0xa0 else 0x80) (if b = 0xed then 0x9f else 0xbf))
  -- Overlong forms would begin with `0xf0`, what is beyond the last character with `0xf4`.
  else if b < 0xf5 then
    .begins (.inside 3 (b - 0xf0)
      (if b = 0xf0 then 0x90 else 0x80) (if b = 0xf4 then 0x8f else 0xbf))
  else .invalid

/-- The text of a list of bytes, from a state of the decoder. Every mistake becomes one
    replacement character, and as many bytes as could begin a character belong to one mistake. -/
def decodeFrom : Decoding → List UInt8 → List Char
  | .start, [] => []
  | .inside _ _ _ _, [] => [replacement]
  | .start, b :: bytes =>
    match opening b.toNat with
    | .single c => c :: decodeFrom .start bytes
    | .begins state => decodeFrom state bytes
    | .invalid => replacement :: decodeFrom .start bytes
  | .inside due value lo hi, b :: bytes =>
    if lo ≤ b.toNat ∧ b.toNat ≤ hi then
      let value' := value * 64 + (b.toNat - 0x80)
      if due ≤ 1 then Char.ofNat value' :: decodeFrom .start bytes
      else decodeFrom (.inside (due - 1) value' 0x80 0xbf) bytes
    else
      -- What was begun is one mistake, and the byte is looked at afresh.
      match opening b.toNat with
      | .single c => replacement :: c :: decodeFrom .start bytes
      | .begins state => replacement :: decodeFrom state bytes
      | .invalid => replacement :: replacement :: decodeFrom .start bytes

/-- The text of a list of bytes. -/
def decode (bytes : List UInt8) : List Char :=
  decodeFrom .start bytes

/-- An ASCII byte is its own character. -/
theorem decode_ascii {b : UInt8} (h : b.toNat < 0x80) (bytes : List UInt8) :
    decode (b :: bytes) = Char.ofNat b.toNat :: decode bytes := by
  simp only [decode, decodeFrom, opening, if_pos h]

end Text

end AccelMonitor
