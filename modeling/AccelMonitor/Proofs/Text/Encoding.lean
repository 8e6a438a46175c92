import AccelMonitor.Text.Decoding

/-!
# Encoding and Decoding

A text that was encoded as UTF-8 is decoded to itself.

The first byte of a character says how many more belong to it and carries the highest
digits of its number, in base 64; each of the others carries one more digit. The decoder
multiplies what it has by 64 and adds the digit, so the number comes together again. What
has to be shown beside that is that no byte is turned away: the numbers of characters are
just those that the ranges of the second byte let pass.

## Main definitions

* `Text.IsTail`: A byte behind the first one of a character.
* `Text.byteOf`: The byte of a character of ASCII.

## Theorems

* `opening_two`, `opening_three`, `opening_four`: What a first byte begins.
* `decodeFrom_last`, `decodeFrom_more`: What one of the other bytes does.
* `decode_two`, `decode_three`, `decode_four`: What some bytes are together.
* `decode_utf8EncodeChar`: A character is read from its bytes, whatever follows.
* `decode_toUTF8`: So is a whole text.
* `flatMap_ascii`, `exists_ascii_front`: Characters and bytes of ASCII.
-/

namespace AccelMonitor

namespace Text

theorem opening_two {b : Nat} (hlow : 0xc2 ≤ b) (hhigh : b < 0xe0) :
    opening b = .begins (.inside 1 (b - 0xc0) 0x80 0xbf) := by
  rw [opening, if_neg (by omega), if_neg (by omega), if_pos hhigh]

theorem opening_three {b : Nat} (hlow : 0xe0 ≤ b) (hhigh : b < 0xf0) :
    opening b = .begins (.inside 2 (b - 0xe0)
      (if b = 0xe0 then 0xa0 else 0x80) (if b = 0xed then 0x9f else 0xbf)) := by
  rw [opening, if_neg (by omega), if_neg (by omega), if_neg (by omega), if_pos hhigh]

theorem opening_four {b : Nat} (hlow : 0xf0 ≤ b) (hhigh : b < 0xf5) :
    opening b = .begins (.inside 3 (b - 0xf0)
      (if b = 0xf0 then 0x90 else 0x80) (if b = 0xf4 then 0x8f else 0xbf)) := by
  rw [opening, if_neg (by omega), if_neg (by omega), if_neg (by omega), if_neg (by omega),
    if_pos hhigh]

variable {value lo hi : Nat} {b : UInt8}

/-- The last byte of a character. -/
theorem decodeFrom_last (hlow : lo ≤ b.toNat) (hhigh : b.toNat ≤ hi) (bytes : List UInt8) :
    decodeFrom (.inside 1 value lo hi) (b :: bytes)
      = Char.ofNat (value * 64 + (b.toNat - 0x80)) :: decodeFrom .start bytes := by
  rw [decodeFrom, if_pos ⟨hlow, hhigh⟩]
  rfl

/-- A byte of a character that is not the last one. -/
theorem decodeFrom_more {due : Nat} (hlow : lo ≤ b.toNat) (hhigh : b.toNat ≤ hi)
    (bytes : List UInt8) :
    decodeFrom (.inside (due + 2) value lo hi) (b :: bytes)
      = decodeFrom (.inside (due + 1) (value * 64 + (b.toNat - 0x80)) 0x80 0xbf) bytes := by
  rw [decodeFrom, if_pos ⟨hlow, hhigh⟩]
  exact if_neg (by omega)

/-- A first byte that begins a character. -/
theorem decodeFrom_begins {state : Decoding} (h : opening b.toNat = .begins state)
    (bytes : List UInt8) : decodeFrom .start (b :: bytes) = decodeFrom state bytes := by
  rw [decodeFrom, h]

/-- The byte can stand behind the first one of a character. -/
def IsTail (b : UInt8) : Prop :=
  0x80 ≤ b.toNat ∧ b.toNat ≤ 0xbf

variable {b₀ b₁ b₂ b₃ : UInt8}

theorem decode_two (hlow : 0xc2 ≤ b₀.toNat) (hhigh : b₀.toNat < 0xe0) (h₁ : IsTail b₁)
    (rest : List UInt8) :
    decode (b₀ :: b₁ :: rest)
      = Char.ofNat ((b₀.toNat - 0xc0) * 64 + (b₁.toNat - 0x80)) :: decode rest := by
  rw [decode, decodeFrom_begins (opening_two hlow hhigh), decodeFrom_last h₁.1 h₁.2, decode]

/-- Three bytes are one character, if they are not longer than needed and give no surrogate. These
    two limit the second byte, depending on the first. -/
theorem decode_three (hlow : 0xe0 ≤ b₀.toNat) (hhigh : b₀.toNat < 0xf0) (h₁ : IsTail b₁)
    (hlong : b₀.toNat = 0xe0 → 0xa0 ≤ b₁.toNat) (hsurrogate : b₀.toNat = 0xed → b₁.toNat ≤ 0x9f)
    (h₂ : IsTail b₂) (rest : List UInt8) :
    decode (b₀ :: b₁ :: b₂ :: rest)
      = Char.ofNat (((b₀.toNat - 0xe0) * 64 + (b₁.toNat - 0x80)) * 64 + (b₂.toNat - 0x80))
          :: decode rest := by
  have hfirst : (if b₀.toNat = 0xe0 then 0xa0 else 0x80) ≤ b₁.toNat := by
    split
    · exact hlong ‹_›
    · exact h₁.1
  have hlast : b₁.toNat ≤ if b₀.toNat = 0xed then 0x9f else 0xbf := by
    split
    · exact hsurrogate ‹_›
    · exact h₁.2
  rw [decode, decodeFrom_begins (opening_three hlow hhigh), decodeFrom_more hfirst hlast,
    decodeFrom_last h₂.1 h₂.2, decode]

/-- Four bytes are one character, if they are not longer than needed and stay within the code
    points. These two limit the second byte, depending on the first. -/
theorem decode_four (hlow : 0xf0 ≤ b₀.toNat) (hhigh : b₀.toNat < 0xf5) (h₁ : IsTail b₁)
    (hlong : b₀.toNat = 0xf0 → 0x90 ≤ b₁.toNat) (hbeyond : b₀.toNat = 0xf4 → b₁.toNat ≤ 0x8f)
    (h₂ : IsTail b₂) (h₃ : IsTail b₃) (rest : List UInt8) :
    decode (b₀ :: b₁ :: b₂ :: b₃ :: rest)
      = Char.ofNat ((((b₀.toNat - 0xf0) * 64 + (b₁.toNat - 0x80)) * 64 + (b₂.toNat - 0x80)) * 64
          + (b₃.toNat - 0x80)) :: decode rest := by
  have hfirst : (if b₀.toNat = 0xf0 then 0x90 else 0x80) ≤ b₁.toNat := by
    split
    · exact hlong ‹_›
    · exact h₁.1
  have hlast : b₁.toNat ≤ if b₀.toNat = 0xf4 then 0x8f else 0xbf := by
    split
    · exact hbeyond ‹_›
    · exact h₁.2
  rw [decode, decodeFrom_begins (opening_four hlow hhigh), decodeFrom_more hfirst hlast,
    decodeFrom_more h₂.1 h₂.2, decodeFrom_last h₃.1 h₃.2, decode]

theorem toNat_ofNat_of_lt {n : Nat} (h : n < 256) : (UInt8.ofNat n).toNat = n := by
  rw [UInt8.toNat_ofNat', Nat.mod_eq_of_lt h]

/-- A byte that carries one digit in base 64. -/
theorem isTail_digit (n : Nat) : IsTail (UInt8.ofNat (n % 0x40 + 0x80)) := by
  rw [IsTail, toNat_ofNat_of_lt (by omega)]
  omega

/-- A character is read from its bytes, whatever follows. The first byte says how many there
    are, and bounds on the second one exclude what could be written shorter or is no character.
    A character's own bytes are within these bounds, so none of the replacements for invalid
    text comes in. -/
theorem decode_utf8EncodeChar (c : Char) (rest : List UInt8) :
    decode (String.utf8EncodeChar c ++ rest) = c :: decode rest := by
  have hvalid : c.val.toNat < 0xd800 ∨ (0xdfff < c.val.toNat ∧ c.val.toNat < 0x110000) := c.valid
  -- A number below the limit that is no surrogate is a character.
  have hback : ∀ n, n = c.val.toNat → Char.ofNat n = c := by
    rintro n rfl
    exact Char.ofNat_toNat c
  have hdigit : ∀ n, (UInt8.ofNat (n % 0x40 + 0x80)).toNat = n % 0x40 + 0x80 :=
    fun n => toNat_ofNat_of_lt (by omega)
  -- One case for each number of bytes. In each the digits make up the number again.
  fun_cases String.utf8EncodeChar c with
  | case1 v hone =>
    have hfirst : (UInt8.ofNat v).toNat = v := toNat_ofNat_of_lt (by omega)
    rw [List.singleton_append, decode_ascii (by omega), hfirst, hback v rfl]
  | case2 v hone htwo =>
    have hfirst : (UInt8.ofNat (v / 64 % 0x20 + 0xc0)).toNat = v / 64 % 0x20 + 0xc0 :=
      toNat_ofNat_of_lt (by omega)
    rw [List.cons_append, List.singleton_append,
      decode_two (by omega) (by omega) (isTail_digit v), hfirst, hdigit, hback _ (by omega)]
  | case3 v hone htwo hthree =>
    have hfirst : (UInt8.ofNat (v / 4096 % 0x10 + 0xe0)).toNat = v / 4096 % 0x10 + 0xe0 :=
      toNat_ofNat_of_lt (by omega)
    have hsecond := hdigit (v / 64)
    rw [List.cons_append, List.cons_append, List.singleton_append,
      decode_three (by omega) (by omega) (isTail_digit (v / 64)) (by omega) (by omega)
        (isTail_digit v), hfirst, hdigit, hdigit, hback _ (by omega)]
  | case4 v hone htwo hthree =>
    have hfirst : (UInt8.ofNat (v / 262144 % 0x08 + 0xf0)).toNat = v / 262144 % 0x08 + 0xf0 :=
      toNat_ofNat_of_lt (by omega)
    have hsecond := hdigit (v / 4096)
    rw [List.cons_append, List.cons_append, List.cons_append, List.singleton_append,
      decode_four (by omega) (by omega) (isTail_digit (v / 4096)) (by omega) (by omega)
        (isTail_digit (v / 64)) (isTail_digit v), hfirst, hdigit, hdigit, hdigit,
      hback _ (by omega)]

/-- A text is read from its bytes. -/
theorem decode_utf8Encode (s : List Char) : decode (s.flatMap String.utf8EncodeChar) = s := by
  induction s with
  | nil => rfl
  | cons c s ih => rw [List.flatMap_cons, decode_utf8EncodeChar, ih]

/-- The bytes of a text are those of its characters. -/
theorem toUTF8_toList (s : String) :
    s.toUTF8.data.toList = s.toList.flatMap String.utf8EncodeChar := by
  have hbytes := String.toByteArray_ofList (l := s.toList)
  rw [String.ofList_toList, List.utf8Encode] at hbytes
  rw [String.toUTF8_eq_toByteArray, hbytes, List.toList_data_toByteArray]

/-- A text is read from its bytes. -/
theorem decode_toUTF8 (s : String) : decode s.toUTF8.data.toList = s.toList := by
  rw [toUTF8_toList, decode_utf8Encode]

/-! ### Texts of one byte a character -/

/-- The byte of a character of ASCII. -/
def byteOf (c : Char) : UInt8 :=
  UInt8.ofNat c.toNat

theorem toNat_byteOf {c : Char} (h : c.toNat < 128) : (byteOf c).toNat = c.toNat :=
  toNat_ofNat_of_lt (by omega)

theorem utf8EncodeChar_ascii {c : Char} (h : c.toNat < 128) :
    String.utf8EncodeChar c = [byteOf c] := by
  have hval : c.val.toNat ≤ 127 := by
    rw [Char.toNat] at h
    omega
  rw [String.utf8EncodeChar, if_pos hval]
  rfl

/-- The first byte of a character tells whether it is of ASCII. All others begin with a byte above
    the bound. -/
theorem utf8EncodeChar_head (c : Char) :
    ∃ b tail, String.utf8EncodeChar c = b :: tail ∧ (b.toNat < 128 → c.toNat < 128) := by
  have hfirst : ∀ {n}, 128 ≤ n → n < 256 → ¬ (UInt8.ofNat n).toNat < 128 := by
    intro n hlow hhigh
    rw [toNat_ofNat_of_lt hhigh]
    omega
  -- Only the encoding of one byte begins below the bound.
  fun_cases String.utf8EncodeChar c with
  | case1 v hone => exact ⟨_, _, rfl, fun _ => Nat.lt_succ_of_le hone⟩
  | case2 v hone htwo =>
    exact ⟨_, _, rfl, fun h => absurd h (hfirst (by omega) (by omega))⟩
  | case3 v hone htwo hthree =>
    exact ⟨_, _, rfl, fun h => absurd h (hfirst (by omega) (by omega))⟩
  | case4 v hone htwo hthree =>
    exact ⟨_, _, rfl, fun h => absurd h (hfirst (by omega) (by omega))⟩

theorem flatMap_ascii {s : List Char} (h : ∀ c ∈ s, c.toNat < 128) :
    s.flatMap String.utf8EncodeChar = s.map byteOf := by
  induction s with
  | nil => rfl
  | cons c s ih =>
    rw [List.forall_mem_cons] at h
    rw [List.flatMap_cons, List.map_cons, utf8EncodeChar_ascii h.1, ih h.2]
    rfl

/-- Where the first bytes of a text are of ASCII, so are as many characters. Other characters
    begin with a byte that is not, so they cannot stand in that part. -/
theorem exists_ascii_front {n : Nat} {s : List Char}
    (hlength : n ≤ (s.flatMap String.utf8EncodeChar).length)
    (h : ∀ b ∈ (s.flatMap String.utf8EncodeChar).take n, b.toNat < 128) :
    ∃ front rest, s = front ++ rest ∧ front.length = n ∧ ∀ c ∈ front, c.toNat < 128 := by
  induction n generalizing s with
  | zero => exact ⟨[], s, rfl, rfl, List.forall_mem_nil _⟩
  | succ n ih =>
    cases s with
    | nil => cases hlength
    | cons c s =>
      rcases utf8EncodeChar_head c with ⟨b, tail, hbytes, hascii⟩
      rw [List.flatMap_cons, hbytes] at h hlength
      -- A character whose first byte is of ASCII has no other.
      have hc : c.toNat < 128 := hascii (h b (List.mem_cons_self ..))
      rw [utf8EncodeChar_ascii hc, List.cons.injEq] at hbytes
      rw [← hbytes.2, List.cons_append, List.nil_append] at h hlength
      rw [List.take_succ_cons, List.forall_mem_cons] at h
      rcases ih (Nat.le_of_succ_le_succ hlength) h.2 with ⟨front, rest, rfl, hfront, hall⟩
      exact ⟨c :: front, rest, rfl, congrArg Nat.succ hfront, List.forall_mem_cons.mpr ⟨hc, hall⟩⟩

end Text

end AccelMonitor
