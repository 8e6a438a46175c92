import AccelMonitor.Benchmark.Report
import AccelMonitor.Proofs.Pattern.Choice

/-!
# Entries of a Section

Which lines of a diagnostic report are entries, and what they say.

An entry is a label, a colon, a number and its unit, with blanks between and around them. A
label can contain blanks itself, but the ones in front of the colon are not part of it. This
is the only place where a line could be read in two ways, so the search is followed forward
for a line that is laid out like this. That every match is laid out so needs no order.

The pattern takes digits of any script, and only a number in ASCII digits that fits into 64
bits is read.

## Main definitions

* `EntryLine`: The parts of a line that the pattern matches.
* `IsEntry`: A line says that a label has a value.

## Theorems

* `entryOf?_chars`: What is read of a line that is laid out like an entry.
* `exists_entryLine`: Every match is laid out like an entry.
* `entryOf?_eq_some`: What is read is what the line says.
* `isEntry_trimList`: Blanks around a line make no difference.
-/

namespace AccelMonitor

namespace Report

/-- A line that is laid out like an entry: a label that begins with a letter and does not end
    with a blank, a colon, digits and a unit. Digits of any script are laid out like that, but
    only ASCII ones have a value. -/
structure EntryLine where
  before : List Char
  /-- The first character of the label. -/
  initial : Char
  /-- The label without it. -/
  name : List Char
  /-- The blanks in front of the colon. -/
  gap : List Char
  /-- The blanks in front of the number. -/
  lead : List Char
  digits : List Char
  /-- The blanks in front of the unit. -/
  space : List Char
  after : List Char
  before_blank : ∀ c ∈ before, Text.isBlank c = true
  initial_letter : isLetter initial = true
  name_chars : ∀ c ∈ name, isLabelChar c = true
  name_last : ∀ c ∈ name.getLast?, Text.isBlank c = false
  gap_blank : ∀ c ∈ gap, Text.isBlank c = true
  lead_blank : ∀ c ∈ lead, Text.isBlank c = true
  digits_decimal : ∀ c ∈ digits, Text.isDecimal c = true
  digits_ne_nil : digits ≠ []
  space_blank : ∀ c ∈ space, Text.isBlank c = true
  after_blank : ∀ c ∈ after, Text.isBlank c = true

namespace EntryLine

/-- The line behind the number. -/
def behind (e : EntryLine) : List Char :=
  e.space ++ ("us".toList ++ e.after)

/-- The line behind the label. -/
def value (e : EntryLine) : List Char :=
  e.gap ++ ':' :: (e.lead ++ (e.digits ++ e.behind))

/-- The line. -/
def chars (e : EntryLine) : List Char :=
  e.before ++ e.initial :: (e.name ++ e.value)

/-- The label. -/
def label (e : EntryLine) : String :=
  String.ofList (e.initial :: e.name)

end EntryLine

/-- The line says that the label has the value. -/
def IsEntry (line : List Char) (label : String) (value : Nat) : Prop :=
  ∃ e : EntryLine, line = e.chars ∧ label = e.label ∧
    (∀ c ∈ e.digits, Text.isDigit c = true) ∧ value = Text.digitsValue e.digits ∧
    value < Text.limit64

theorem isBlank_of_isLetter {c : Char} (h : isLetter c = true) : Text.isBlank c = false := by
  have hrange : 0x30 ≤ c.toNat ∧ c.toNat ≤ 0x7a := by
    simp only [isLetter, Bool.or_eq_true, Bool.and_eq_true, decide_eq_true_eq] at h
    rcases h with ⟨hlow, hhigh⟩ | ⟨hlow, hhigh⟩
    · exact ⟨Nat.le_trans (by decide) hlow, Nat.le_trans hhigh (by decide)⟩
    · exact ⟨Nat.le_trans (by decide) hlow, Nat.le_trans hhigh (by decide)⟩
  exact Text.isBlank_of_range hrange.1 hrange.2

namespace EntryLine

variable (e : EntryLine)

/-- Behind the number stands no digit. -/
theorem head_behind : ∀ c ∈ e.behind.head?, Text.isDecimal c = false :=
  Text.head_append (fun c hc => Text.isDecimal_of_isBlank (e.space_blank c hc))
    (Text.head_char (by decide) _)

/-- In front of the number stands no blank that is not counted. -/
theorem head_digits : ∀ c ∈ (e.digits ++ e.behind).head?, Text.isBlank c = false := by
  have hdigits := e.digits_decimal
  cases h : e.digits with
  | nil => exact absurd h e.digits_ne_nil
  | cons d digits =>
    rw [h] at hdigits
    exact Text.head_char (Text.isBlank_of_isDecimal (hdigits d (List.mem_cons_self ..))) _

/-- The match of a line that is laid out like an entry: the label runs from the first letter to
    the last character in front of the blanks before the colon, and the number is all the digits.
    No character of the label is a colon, and no digit is a blank, so each part ends where the
    layout says. -/
theorem atStart_chars : entryPattern.atStart e.chars
    = some [(1, e.initial :: (e.name ++ e.value)), (1, e.value),
        (2, e.digits ++ e.behind), (2, e.behind)] := by
  have hcolon : ':' ∉ e.name := fun hmem => absurd (e.name_chars ':' hmem) (by decide)
  have hnil : ∀ c ∈ ([] : List Char).head?, Text.isBlank c = false :=
    fun c hc => nomatch hc
  have hend : Pattern.atEnd.first [] (fun _ => some []) = some [] := rfl
  -- One part of the pattern after the other, from the end of the line to its start.
  have hafter := Pattern.first_blanks_seq e.after_blank hnil hend
  rw [List.append_nil] at hafter
  have hunit := Pattern.first_blanks_seq e.space_blank (Text.head_char (by decide) _)
    (Pattern.first_text_seq "us".toList hafter)
  have hnumber := Pattern.first_blanks_seq e.lead_blank e.head_digits
    (Pattern.first_group_some1 2 e.digits_ne_nil e.digits_decimal e.head_behind hunit)
  have hvalue := Pattern.first_blanks_seq e.gap_blank (Text.head_char (by decide) _)
    (Pattern.first_text_seq [':'] hnumber)
  have hlabel := Pattern.first_group_lead 1 ((Pattern.opensWith_text ':' []).seq _)
    e.initial_letter e.name_chars hcolon e.name_last hvalue
  exact Pattern.first_blanks_seq e.before_blank
    (Text.head_char (isBlank_of_isLetter e.initial_letter) _) hlabel

/-- What is read of a line that is laid out like an entry. -/
theorem entryOf?_chars : entryOf? e.chars
    = (Text.readNat? Text.limit64 e.digits).map fun n => (e.label, n) := by
  have hlabel : Groups.get [(1, e.initial :: (e.name ++ e.value)), (1, e.value),
      (2, e.digits ++ e.behind), (2, e.behind)] 1 = e.label :=
    Groups.get_here 1 (e.initial :: e.name) e.value _
  have hdigits : Groups.get [(1, e.initial :: (e.name ++ e.value)), (1, e.value),
      (2, e.digits ++ e.behind), (2, e.behind)] 2 = String.ofList e.digits := by
    rw [Groups.get_further (by decide), Groups.get_further (by decide)]
    exact Groups.get_here 2 e.digits e.behind []
  rw [entryOf?, Pattern.findStart_eq_atStart, e.atStart_chars, Option.bind_some, hlabel, hdigits,
    micros?, String.toList_ofList]

end EntryLine

/-- Every match is laid out like an entry. A derivation may divide the line differently, since a
    label can take along some of the blanks behind it, but the blanks can always be given back to
    the gap. -/
theorem exists_entryLine {line : List Char} {g : Groups} (h : entryPattern.atStart line = some g) :
    ∃ e : EntryLine, line = e.chars := by
  rcases Pattern.atStart_eq_some h with ⟨piece, rest, rfl, hderives⟩
  -- The parts of the line, in the order of the parts of the pattern.
  rcases hderives with ⟨before, _, _, _, rfl, rfl, ⟨hbefore, rfl⟩, hderives⟩
  rcases hderives with ⟨label, _, _, _, rfl, rfl, ⟨_, _, hlabel⟩, hderives⟩
  rcases hlabel with ⟨_, name, _, _, rfl, rfl, ⟨⟨initial, hinitial, rfl⟩, rfl⟩, hname, rfl⟩
  rcases hderives with ⟨gap, _, _, _, rfl, rfl, ⟨hgap, rfl⟩, hderives⟩
  rcases hderives with ⟨_, _, _, _, rfl, rfl, ⟨rfl, rfl⟩, hderives⟩
  rcases hderives with ⟨lead, _, _, _, rfl, rfl, ⟨hlead, rfl⟩, hderives⟩
  rcases hderives with ⟨digits, _, _, _, rfl, rfl, ⟨_, _, hdigits⟩, hderives⟩
  rcases Pattern.derives_some1_iff.mp hdigits with ⟨hne, hdecimal, rfl⟩
  rcases hderives with ⟨space, _, _, _, rfl, rfl, ⟨hspace, rfl⟩, hderives⟩
  rcases hderives with ⟨_, _, _, _, rfl, rfl, ⟨rfl, rfl⟩, hderives⟩
  rcases hderives with ⟨after, _, _, _, rfl, rfl, ⟨hafter, rfl⟩, rfl, rfl, rfl⟩
  -- The blanks at the end of the label belong to those in front of the colon.
  rcases Text.split_blanks_end name with ⟨front, back, rfl, hfront, hback⟩
  rw [List.forall_mem_append] at hname
  refine ⟨⟨before, initial, front, back ++ gap, lead, digits, space, after, hbefore, hinitial,
    hname.1, hfront, ?_, hlead, hdecimal, hne, hspace, hafter⟩, ?_⟩
  · rw [List.forall_mem_append]
    exact ⟨hback, hgap⟩
  · simp only [EntryLine.chars, EntryLine.value, EntryLine.behind, List.append_assoc,
      List.cons_append, List.nil_append, List.append_nil]
    rfl

/-- Digits have no plus sign in front of them. -/
theorem afterPlus_digits {digits : List Char}
    (hdecimal : ∀ c ∈ digits, Text.isDecimal c = true) : Text.afterPlus digits = digits := by
  cases digits with
  | nil => rfl
  | cons c digits =>
    have hc : c ≠ '+' := by
      rintro rfl
      exact absurd (hdecimal '+' (List.mem_cons_self ..)) (by decide)
    rw [Text.afterPlus.eq_def]
    split
    · rename_i heq
      exact absurd (List.cons.inj heq).1 hc
    · rfl

/-- A number in decimal digits is read if they are ASCII and it is below the bound. -/
theorem readNat?_eq_some {digits : List Char} {bound n : Nat}
    (hdecimal : ∀ c ∈ digits, Text.isDecimal c = true) (hne : digits ≠ []) :
    Text.readNat? bound digits = some n ↔
      (∀ c ∈ digits, Text.isDigit c = true) ∧ n = Text.digitsValue digits ∧ n < bound := by
  rw [Text.readNat?, afterPlus_digits hdecimal]
  simp only [hne, ne_eq, not_false_eq_true, true_and, List.all_eq_true]
  constructor
  · intro h
    split at h
    · rename_i hread
      rw [← Option.some.inj h]
      exact ⟨hread.1, rfl, hread.2⟩
    · cases h
  · rintro ⟨hdigits, rfl, hbound⟩
    rw [if_pos ⟨hdigits, hbound⟩]

/-- What is read is what the line says: the label of the layout, and the number that its digits
    write, if they are ASCII and the number has 64 bits. -/
theorem entryOf?_eq_some {line : List Char} {label : String} {value : Nat} :
    entryOf? line = some (label, value) ↔ IsEntry line label value := by
  have hread : ∀ e : EntryLine, entryOf? e.chars = some (label, value) ↔ label = e.label ∧
      (∀ c ∈ e.digits, Text.isDigit c = true) ∧ value = Text.digitsValue e.digits ∧
      value < Text.limit64 := by
    intro e
    rw [e.entryOf?_chars, Option.map_eq_some_iff]
    simp only [Prod.mk.injEq, readNat?_eq_some e.digits_decimal e.digits_ne_nil]
    constructor
    · rintro ⟨_, hvalue, hlabel, rfl⟩
      exact ⟨hlabel.symm, hvalue⟩
    · rintro ⟨hlabel, hvalue⟩
      exact ⟨value, hvalue, hlabel.symm, rfl⟩
  constructor
  · intro h
    have hmatch := h
    rw [entryOf?, Pattern.findStart_eq_atStart] at hmatch
    rcases Option.bind_eq_some_iff.mp hmatch with ⟨g, hg, _⟩
    -- A line that is read matches, so it has a layout to read it by.
    rcases exists_entryLine hg with ⟨e, rfl⟩
    exact ⟨e, rfl, (hread e).mp h⟩
  · rintro ⟨e, rfl, hvalue⟩
    exact (hread e).mpr hvalue

namespace EntryLine

/-- The line without the blanks around it. -/
def core (e : EntryLine) : List Char :=
  e.initial :: (e.name ++ (e.gap ++ ':' :: (e.lead ++ (e.digits ++ (e.space ++ "us".toList)))))

/-- The same with other blanks around it. -/
def around (e : EntryLine) (before after : List Char)
    (hbefore : ∀ c ∈ before, Text.isBlank c = true)
    (hafter : ∀ c ∈ after, Text.isBlank c = true) : EntryLine :=
  { e with before, after, before_blank := hbefore, after_blank := hafter }

theorem chars_eq (e : EntryLine) : e.chars = e.before ++ (e.core ++ e.after) := by
  simp only [chars, value, behind, core, List.append_assoc, List.cons_append]

theorem isTrimmed_core (e : EntryLine) : Text.IsTrimmed e.core where
  head := Text.head_char (isBlank_of_isLetter e.initial_letter) _
  last := by
    have hcore : e.core = e.initial :: (e.name ++ (e.gap ++ ':' :: (e.lead ++ (e.digits
        ++ (e.space ++ ['u']))))) ++ ['s'] := by
      simp only [core, List.append_assoc, List.cons_append, List.nil_append]
      rfl
    rw [hcore, List.getLast?_concat]
    intro c hc
    rw [← Option.some.inj hc]
    rfl

end EntryLine

/-- Blanks around a line make no difference, since an entry allows for them on both sides. -/
theorem isEntry_trimList {line : List Char} {label : String} {value : Nat} :
    IsEntry (Text.trimList line) label value ↔ IsEntry line label value := by
  constructor
  · rintro ⟨e, hline, hentry⟩
    -- The blanks that were trimmed off belong in front of the label and behind the unit.
    rcases Text.exists_trimList line with ⟨before, after, hsplit, hbefore, hafter⟩
    refine ⟨e.around (before ++ e.before) (e.after ++ after) ?_ ?_, ?_, hentry⟩
    · exact List.forall_mem_append.mpr ⟨hbefore, e.before_blank⟩
    · exact List.forall_mem_append.mpr ⟨e.after_blank, hafter⟩
    · rw [EntryLine.chars_eq, hsplit, hline, e.chars_eq]
      simp only [EntryLine.around, EntryLine.core, List.append_assoc]
  · rintro ⟨e, rfl, hentry⟩
    refine ⟨e.around [] [] (List.forall_mem_nil _) (List.forall_mem_nil _), ?_, hentry⟩
    rw [e.chars_eq, Text.trimList_append e.before_blank e.isTrimmed_core (List.cons_ne_nil _ _)
      e.after_blank, EntryLine.chars_eq]
    exact (List.append_nil _).symm

end Report

end AccelMonitor
