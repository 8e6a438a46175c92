import AccelMonitor.Number.Reading

/-!
# Numerals

A decimal as it is written, and what is read of it.

The reader of numbers splits a text at the first character that is no digit, more than
once, and so finds the parts of a decimal that was put together from them. A decimal
with its parts and the conditions on them is a `Numeral`; `readList_chars` says that
reading it succeeds, with the value of exactly its digits, its sign and its exponent.

## Main definitions

* `Numeral`, `Numeral.Exponent`: A written decimal by its parts.
* `Numeral.chars`: What is written.
* `Numeral.literal`: The literal that it stands for.

## Theorems

* `splitSign_append`: A sign is split off.
* `span_digits`: Digits end where another character stands.
* `exponentPart?_chars`: An exponent is read.
* `readList_chars`: A decimal is read.
-/

namespace AccelMonitor

/-- A sign or no sign. -/
def IsSign (sign : Option Char) : Prop :=
  ∀ c ∈ sign, c = '-' ∨ c = '+'

theorem isSign_none : IsSign none :=
  fun c hc => absurd hc (Option.not_mem_none c)

theorem isSign_some {c : Char} (h : c = '-' ∨ c = '+') : IsSign (some c) := by
  intro d hd
  rw [← Option.some.inj hd]
  exact h

/-- One or more ASCII digits. -/
structure IsDigits (s : List Char) : Prop where
  ne_nil : s ≠ []
  digit : ∀ c ∈ s, Text.isDigit c = true

theorem isDigits_of {s : List Char} (hs : s ≠ []) (hall : s.all Text.isDigit = true) :
    IsDigits s :=
  ⟨hs, List.all_eq_true.mp hall⟩

/-- A written exponent. -/
structure Numeral.Exponent where
  mark : Char
  sign : Option Char
  digits : List Char
  mark_valid : mark = 'e' ∨ mark = 'E'
  sign_valid : IsSign sign
  digits_valid : IsDigits digits

/-- A written decimal, with an optional sign, fraction and exponent. There is at least one digit
    on each side of a point, so it is what programs print and not all that a reader of numbers
    would take. -/
structure Numeral where
  sign : Option Char
  whole : List Char
  fraction : Option (List Char)
  exponent : Option Numeral.Exponent
  sign_valid : IsSign sign
  whole_valid : IsDigits whole
  fraction_valid : ∀ digits ∈ fraction, IsDigits digits

namespace Numeral

namespace Exponent

/-- What is written. -/
def chars (e : Exponent) : List Char :=
  e.mark :: (e.sign.toList ++ e.digits)

/-- The number that is written. -/
def value (e : Exponent) : Int :=
  if e.sign = some '-' then -(Text.digitsValue e.digits : Int) else Text.digitsValue e.digits

end Exponent

/-- The fraction with the point in front. -/
def fractionChars (d : Numeral) : List Char :=
  match d.fraction with
  | none => []
  | some digits => '.' :: digits

/-- The exponent with its letter. -/
def exponentChars (d : Numeral) : List Char :=
  match d.exponent with
  | none => []
  | some e => e.chars

/-- What is written. -/
def chars (d : Numeral) : List Char :=
  d.sign.toList ++ (d.whole ++ (d.fractionChars ++ d.exponentChars))

/-- The literal that a decimal stands for. -/
def literal (d : Numeral) : Literal where
  negative := d.sign = some '-'
  significand := Text.digitsValue (d.whole ++ d.fraction.getD [])
  exponent := (d.exponent.map Numeral.Exponent.value).getD 0 - (d.fraction.getD []).length

end Numeral

namespace Literal

/-- Where digits follow, a sign is split off. The digits are needed for the case without a sign:
    what stands first is then a digit, which is no sign. -/
theorem splitSign_append {sign : Option Char} (hsign : IsSign sign) {s : List Char}
    (hs : ∀ c ∈ s.head?, Text.isDigit c = true) :
    splitSign (sign.toList ++ s) = (decide (sign = some '-'), s) := by
  cases sign with
  | some c =>
    rcases hsign c rfl with rfl | rfl
    · rfl
    · rfl
  | none =>
    cases s with
    | nil => rfl
    | cons d s =>
      have hdigit := hs d rfl
      simp only [Option.toList_none, List.nil_append]
      unfold splitSign
      split
      · rename_i heq
        rw [(List.cons.inj heq).1] at hdigit
        exact absurd hdigit (by decide)
      · rename_i heq
        rw [(List.cons.inj heq).1] at hdigit
        exact absurd hdigit (by decide)
      · rfl

/-- Digits end where another character stands. -/
theorem span_digits {digits rest : List Char} (hdigits : ∀ c ∈ digits, Text.isDigit c = true)
    (hrest : ∀ c ∈ rest.head?, Text.isDigit c = false) :
    (digits ++ rest).takeWhile Text.isDigit = digits ∧
      (digits ++ rest).dropWhile Text.isDigit = rest := by
  rw [List.takeWhile_append_of_pos hdigits, List.dropWhile_append_of_pos hdigits]
  cases rest with
  | nil => exact ⟨List.append_nil digits, rfl⟩
  | cons c rest =>
    have hc : ¬ Text.isDigit c = true := Bool.eq_false_iff.mp (hrest c rfl)
    rw [List.takeWhile_cons, List.dropWhile_cons, if_neg hc, if_neg hc]
    exact ⟨List.append_nil digits, rfl⟩

theorem head_digits {digits : List Char} (h : IsDigits digits) (rest : List Char) :
    ∀ c ∈ (digits ++ rest).head?, Text.isDigit c = true := by
  intro c hc
  cases digits with
  | nil => exact absurd rfl h.ne_nil
  | cons d digits =>
    rw [List.cons_append, List.head?_cons, Option.mem_some_iff] at hc
    rw [← hc]
    exact h.digit d (List.mem_cons_self ..)

/-- An exponent is read from its letter on. -/
theorem exponentPart?_chars (e : Numeral.Exponent) : exponentPart? e.chars = some e.value := by
  have hsign : splitSign (e.sign.toList ++ e.digits) = (decide (e.sign = some '-'), e.digits) := by
    refine splitSign_append e.sign_valid ?_
    have hhead := head_digits e.digits_valid []
    rw [List.append_nil] at hhead
    exact hhead
  have hall : e.digits ≠ [] ∧ e.digits.all Text.isDigit = true :=
    ⟨e.digits_valid.ne_nil, List.all_eq_true.mpr e.digits_valid.digit⟩
  rw [Numeral.Exponent.chars, exponentPart?, if_pos e.mark_valid, exponentOf?, hsign]
  simp only [if_pos hall, decide_eq_true_eq]
  rfl

theorem exponentPart?_exponentChars (d : Numeral) :
    exponentPart? d.exponentChars = some ((d.exponent.map Numeral.Exponent.value).getD 0) := by
  rw [Numeral.exponentChars]
  cases d.exponent with
  | none => rfl
  | some e => exact exponentPart?_chars e

/-- No digit and no point begins an exponent, so neither the whole part nor the fraction in front
    of it goes on into it. -/
theorem exponentChars_head (d : Numeral) :
    ∀ c ∈ d.exponentChars.head?, Text.isDigit c = false ∧ c ≠ '.' := by
  intro c hc
  rw [Numeral.exponentChars] at hc
  cases hexponent : d.exponent with
  | none =>
    rw [hexponent] at hc
    cases hc
  | some e =>
    rw [hexponent] at hc
    simp only [Numeral.Exponent.chars, List.head?_cons, Option.mem_some_iff] at hc
    rw [← hc]
    rcases e.mark_valid with hmark | hmark
    · rw [hmark]
      decide
    · rw [hmark]
      decide

/-- What follows the whole part is read as fraction and exponent. An exponent begins neither with
    a digit nor with a point, so the fraction ends where the exponent begins. -/
theorem fraction_chars (d : Numeral) :
    fraction (d.fractionChars ++ d.exponentChars) = (d.fraction.getD [], d.exponentChars) := by
  have hhead := exponentChars_head d
  rw [Numeral.fractionChars]
  cases hfraction : d.fraction with
  | some digits =>
    have hspan := span_digits (d.fraction_valid digits hfraction).digit fun c hc => (hhead c hc).1
    simp only [List.cons_append, fraction, hspan.1, hspan.2, Option.getD_some]
  | none =>
    simp only [List.nil_append, Option.getD_none]
    revert hhead
    generalize d.exponentChars = tail
    intro hhead
    -- Without a point there is no fraction.
    unfold fraction
    split
    · exact absurd rfl (hhead '.' rfl).2
    · rfl

/-- No digit follows the whole part: there is a point, an exponent or the end. -/
theorem fractionChars_head (d : Numeral) :
    ∀ c ∈ (d.fractionChars ++ d.exponentChars).head?, Text.isDigit c = false := by
  intro c hc
  rw [Numeral.fractionChars] at hc
  cases hfraction : d.fraction with
  | none =>
    rw [hfraction] at hc
    exact (exponentChars_head d c hc).1
  | some digits =>
    rw [hfraction] at hc
    simp only [List.cons_append, List.head?_cons, Option.mem_some_iff] at hc
    rw [← hc]
    decide

end Literal

/-- A written decimal is read as the literal that it stands for: sign, whole part, fraction and
    exponent are told apart one after the other, and none of them can take a character of the
    next. -/
theorem Numeral.readList_chars (d : Numeral) :
    Binary64.readList d.chars = .ok d.literal.value := by
  have hsign : Literal.splitSign d.chars
      = (decide (d.sign = some '-'), d.whole ++ (d.fractionChars ++ d.exponentChars)) :=
    Literal.splitSign_append d.sign_valid (Literal.head_digits d.whole_valid _)
  have hspan := Literal.span_digits d.whole_valid.digit (Literal.fractionChars_head d)
  have hsome : d.chars ≠ [] := by
    intro hnil
    have hwhole := (List.append_eq_nil_iff.mp (List.append_eq_nil_iff.mp hnil).2).1
    exact d.whole_valid.ne_nil hwhole
  have hunsigned : Literal.unsigned? (decide (d.sign = some '-'))
      (d.whole ++ (d.fractionChars ++ d.exponentChars)) = some d.literal := by
    simp only [Literal.unsigned?, hspan.1, hspan.2, Literal.fraction_chars,
      d.whole_valid.ne_nil, false_and, if_false, Literal.exponentPart?_exponentChars,
      Option.map_some]
    rfl
  rw [Binary64.readList, if_neg hsome, hsign]
  simp only [hunsigned]

end AccelMonitor
