import AccelMonitor.Proofs.Benchmark.Entry
import Mathlib.Data.List.TakeWhile
import Mathlib.Order.WellFounded

/-!
# The Line with the Times

Which lines of the tool's report give the initialisation time and the average inference time,
and what times they give.

A line can hold the words of the pattern more than once, so it can be laid out in several
ways. The one that counts begins furthest to the left, and of those that begin there it is the
one with the most text between the two times. Both times are whole numbers, and a fraction
behind one of them is passed over.

Every match is some layout of the line, in whatever order the search goes. A line with a
layout has one that counts, and for that one the search is followed forward. So there is no
other answer.

## Main definitions

* `TimingsLine`: A layout of a line.
* `TimingsLine.Counts`: No other layout of the line goes before this one.
* `WritesNat`: ASCII digits write a number of 64 bits.
* `IsTimings`: The line gives the two times.

## Theorems

* `exists_timingsLine`: Every match is a layout.
* `exists_counts`: A line with a layout has one that counts.
* `TimingsLine.search_chars`: The match of a line is the layout that counts.
* `timings?_eq_some`: What is read is what the line says.
-/

namespace AccelMonitor

namespace Text

/-- Decimal digits in front of a text, with all the digits that follow them. -/
theorem exists_digits_end {digits : List Char} (hne : digits ≠ [])
    (hdecimal : ∀ c ∈ digits, isDecimal c = true) (s : List Char) :
    ∃ all rest, digits ++ s = all ++ rest ∧ all ≠ [] ∧ (∀ c ∈ all, isDecimal c = true) ∧
      ∀ c ∈ rest.head?, isDecimal c = false := by
  refine ⟨digits ++ s.takeWhile isDecimal, s.dropWhile isDecimal, ?_, ?_, ?_, ?_⟩
  · rw [List.append_assoc, List.takeWhile_append_dropWhile]
  · exact List.append_ne_nil_of_left_ne_nil hne _
  · exact List.forall_mem_append.mpr ⟨hdecimal, fun c hc => List.mem_takeWhile_imp hc⟩
  · intro c hc
    have hstop := List.head?_dropWhile_not isDecimal s
    rw [hc] at hstop
    exact hstop

end Text

namespace Report

open Pattern

/-- What may stand behind a whole number: nothing, or a point and digits. -/
def IsFraction (s : List Char) : Prop :=
  s = [] ∨ ∃ digits, digits ≠ [] ∧ (∀ c ∈ digits, Text.isDecimal c = true) ∧ s = '.' :: digits

/-- A layout of a line with the times. The words in front of them can stand in a line several
    times, so one line can have several layouts, with different times. -/
structure TimingsLine where
  before : List Char
  /-- The digits of the initialisation time. -/
  start : List Char
  fraction : List Char
  /-- The text between the times. -/
  between : List Char
  /-- The digits of the average inference time. -/
  average : List Char
  after : List Char
  start_decimal : ∀ c ∈ start, Text.isDecimal c = true
  start_ne_nil : start ≠ []
  isFraction : IsFraction fraction
  between_inLine : ∀ c ∈ between, isInLine c = true
  average_decimal : ∀ c ∈ average, Text.isDecimal c = true
  average_ne_nil : average ≠ []
  head_after : ∀ c ∈ after.head?, Text.isDecimal c = false

namespace TimingsLine

/-- The line from the words in front of the average on. -/
def tail (t : TimingsLine) : List Char :=
  "Inference (avg): ".toList ++ (t.average ++ t.after)

/-- The line behind the initialisation time. -/
def behind (t : TimingsLine) : List Char :=
  ',' :: (t.between ++ t.tail)

/-- The line from the initialisation time on. -/
def value (t : TimingsLine) : List Char :=
  t.start ++ (t.fraction ++ t.behind)

/-- The line from the words in front of the initialisation time on. -/
def core (t : TimingsLine) : List Char :=
  "Init: ".toList ++ t.value

/-- The line. -/
def chars (t : TimingsLine) : List Char :=
  t.before ++ t.core

/-- No other layout of the line goes before this one: none begins further to the left, and of
    those that begin at its place none has more between the times. -/
def Counts (t : TimingsLine) : Prop :=
  ∀ u : TimingsLine, u.chars = t.chars → t.before.length ≤ u.before.length ∧
    (u.before.length = t.before.length → u.between.length ≤ t.between.length)

end TimingsLine

/-- The digits are ASCII and write a number of 64 bits. -/
def WritesNat (digits : List Char) (n : Nat) : Prop :=
  (∀ c ∈ digits, Text.isDigit c = true) ∧ n = Text.digitsValue digits ∧ n < Text.limit64

/-- The line gives the initialisation time and the average inference time. -/
def IsTimings (line : List Char) (start average : Nat) : Prop :=
  ∃ t : TimingsLine, line = t.chars ∧ t.Counts ∧ WritesNat t.start start ∧
    WritesNat t.average average

/-- What matches as a whole number is digits and what may stand behind them. -/
theorem wholePattern_derives {i : Nat} {piece rest : List Char} {g : Groups}
    (h : (wholePattern i).Derives piece rest g) :
    ∃ digits fraction, piece = digits ++ fraction ∧ digits ≠ [] ∧
      (∀ c ∈ digits, Text.isDecimal c = true) ∧ IsFraction fraction := by
  rcases h with ⟨digits, fraction, _, _, rfl, rfl, ⟨_, _, hdigits⟩, hfraction⟩
  rcases derives_some1_iff.mp hdigits with ⟨hne, hdecimal, _⟩
  refine ⟨digits, fraction, rfl, hne, hdecimal, ?_⟩
  rcases hfraction with ⟨_, more, _, _, rfl, _, ⟨rfl, _⟩, hmore⟩ | ⟨rfl, _⟩
  · rcases derives_some1_iff.mp hmore with ⟨hne, hdecimal, _⟩
    exact Or.inr ⟨more, hne, hdecimal, rfl⟩
  · exact Or.inl rfl

/-- The average with the words in front of it. -/
def averagePattern : Pattern :=
  .seq (.str "Inference (avg): ") (wholePattern 2)

/-- The pattern part by part. -/
theorem timingsPattern_eq : timingsPattern = .seq (.str "Init: ") (.seq (wholePattern 1)
    (.seq (.str ",") (.seq (.many isInLine) averagePattern))) := rfl

/-- What matches as the average begins with its words and with all its digits. -/
theorem averagePattern_derives {piece rest : List Char} {g : Groups}
    (h : averagePattern.Derives piece rest g) :
    ∃ average after, piece ++ rest = "Inference (avg): ".toList ++ (average ++ after) ∧
      average ≠ [] ∧ (∀ c ∈ average, Text.isDecimal c = true) ∧
      ∀ c ∈ after.head?, Text.isDecimal c = false := by
  rcases h with ⟨_, whole, _, _, rfl, _, ⟨rfl, _⟩, hwhole⟩
  rcases wholePattern_derives hwhole with ⟨digits, fraction, rfl, hne, hdecimal, _⟩
  rcases Text.exists_digits_end hne hdecimal (fraction ++ rest) with
    ⟨average, after, hsplit, haverage⟩
  exact ⟨average, after, by rw [List.append_assoc, List.append_assoc, hsplit], haverage⟩

/-- Every match is a layout of the line, with what stands in front of the match as its beginning. -/
theorem exists_timingsLine {piece rest : List Char} {g : Groups} (before : List Char)
    (h : timingsPattern.Derives piece rest g) :
    ∃ t : TimingsLine, t.before = before ∧ t.chars = before ++ (piece ++ rest) := by
  rw [timingsPattern_eq] at h
  -- The parts of the line, in the order of the parts of the pattern.
  rcases h with ⟨_, _, _, _, rfl, rfl, ⟨rfl, _⟩, h⟩
  rcases h with ⟨whole, _, _, _, rfl, rfl, hwhole, h⟩
  rcases h with ⟨_, _, _, _, rfl, rfl, ⟨rfl, _⟩, h⟩
  rcases h with ⟨between, _, _, _, rfl, rfl, ⟨hbetween, _⟩, haverage⟩
  rcases wholePattern_derives hwhole with ⟨start, fraction, rfl, hne, hdecimal, hfraction⟩
  rcases averagePattern_derives haverage with ⟨average, after, htail, hne', hdecimal', hafter⟩
  refine ⟨⟨before, start, fraction, between, average, after, hdecimal, hne, hfraction, hbetween,
    hdecimal', hne', hafter⟩, rfl, ?_⟩
  change before ++ ("Init: ".toList ++ (start ++ (fraction ++ (",".toList ++ (between
    ++ ("Inference (avg): ".toList ++ (average ++ after))))))) = _
  rw [← htail, List.append_assoc, List.append_assoc, List.append_assoc, List.append_assoc,
    List.append_assoc]

namespace TimingsLine

variable (t : TimingsLine)

/-- Behind the initialisation time stands no digit. -/
theorem head_fraction : ∀ c ∈ (t.fraction ++ t.behind).head?, Text.isDecimal c = false := by
  rcases t.isFraction with hnone | ⟨digits, _, _, hsome⟩
  · rw [hnone]
    exact Text.head_char (by decide) _
  · rw [hsome]
    exact Text.head_char (by decide) _

/-- The places of the groups in a layout. -/
def groups : Groups :=
  [(1, t.value), (1, t.fraction ++ t.behind), (2, t.average ++ t.after), (2, t.after)]

/-- The end of a layout that has the most text between the times is where the search goes. The
    pattern prefers the longest text there, and comes back from the end of the line until the
    rest fits. A layout with more text would be met on the way, so the one with the most is met
    first. -/
theorem between_seq (h : ∀ u : TimingsLine, u.chars = t.chars →
      u.before.length = t.before.length → u.between.length ≤ t.between.length) :
    (seq (many isInLine) averagePattern).first (t.between ++ t.tail) (fun _ => some [])
      = some [(2, t.average ++ t.after), (2, t.after)] := by
  -- At its own end the layout is accepted.
  have htail : averagePattern.first t.tail (fun _ => some [])
      = some [(2, t.average ++ t.after), (2, t.after)] :=
    first_text_seq _ (first_group_some1 2 t.average_ne_nil t.average_decimal t.head_after
      (first_optional_end rfl t.after))
  refine (runFirst_last t.between_inLine ?_ (by rw [htail]; rfl)).trans htail
  -- What is found further on would be a layout with more between the times.
  intro x y hsplit hx hinLine
  refine Option.eq_none_iff_forall_ne_some.mpr fun g hg => ?_
  rcases atStart_eq_some hg with ⟨piece, rest, rfl, hderives⟩
  rcases averagePattern_derives hderives with ⟨average, after, hy, hne, hdecimal, hafter⟩
  have hsame : t.between ++ t.tail
      = (t.between ++ x) ++ ("Inference (avg): ".toList ++ (average ++ after)) := by
    rw [hsplit, hy, List.append_assoc]
  have hlonger := h
    { t with
      between := t.between ++ x
      average
      after
      between_inLine := List.forall_mem_append.mpr ⟨t.between_inLine, hinLine⟩
      average_decimal := hdecimal
      average_ne_nil := hne
      head_after := hafter }
    (congrArg (fun s => t.before ++ ("Init: ".toList ++ (t.start ++ (t.fraction ++ ',' :: s))))
      hsame.symm) rfl
  -- It has at least one character more, against the choice of the layout.
  rw [List.length_append] at hlonger
  have hpos := List.length_pos_iff.mpr hx
  omega

/-- The match at the start of a layout that has the most text between the times. The text between
    them is matched longest first, so the search ends in this layout. -/
theorem atStart_core (h : ∀ u : TimingsLine, u.chars = t.chars →
      u.before.length = t.before.length → u.between.length ≤ t.between.length) :
    timingsPattern.atStart t.core = some t.groups := by
  have hbehind : (seq (str ",") (seq (many isInLine) averagePattern)).first t.behind
      (fun _ => some []) = some [(2, t.average ++ t.after), (2, t.after)] :=
    first_text_seq [','] (t.between_seq h)
  have hfraction : (seq (optional (all [.str ".", .digits1]))
      (seq (str ",") (seq (many isInLine) averagePattern))).first (t.fraction ++ t.behind)
      (fun _ => some []) = some [(2, t.average ++ t.after), (2, t.after)] := by
    -- The whole part is taken with or without decimals, whichever the line has.
    rcases t.isFraction with hnone | ⟨digits, hne, hdecimal, hsome⟩
    · rw [hnone]
      have hcomma : t.behind.head? ≠ some '.' := by
        rw [behind, List.head?_cons]
        decide
      exact (first_optional_absent ((opensWith_text '.' []).seq _ _ _ hcomma)).trans hbehind
    · rw [hsome]
      exact first_optional_present (first_text_seq ['.']
        (first_some1 hne hdecimal (Text.head_char (by decide) _) hbehind))
  exact first_text_seq _
    (first_group_some1 1 t.start_ne_nil t.start_decimal t.head_fraction hfraction)

/-- The match of a line is the layout that counts. -/
theorem search_chars (h : t.Counts) : timingsPattern.search t.chars = some t.groups := by
  refine search_eq_some_iff.mpr ⟨t.before.length, ?_, fun j hj => ?_⟩
  · rw [chars, List.drop_left]
    exact t.atStart_core fun u hu => (h u hu).2
  · -- What is found earlier would be a layout that begins further to the left.
    refine Option.eq_none_iff_forall_ne_some.mpr fun g hg => ?_
    rcases atStart_eq_some hg with ⟨piece, rest, hdrop, hderives⟩
    rcases exists_timingsLine (t.chars.take j) hderives with ⟨u, hbefore, hchars⟩
    rw [← hdrop, List.take_append_drop] at hchars
    have hleft := (h u hchars).1
    rw [hbefore, List.length_take] at hleft
    omega

/-- The text between the times is no longer than the line. -/
theorem length_between_le : t.between.length ≤ t.chars.length := by
  have hend : t.behind <:+ t.chars := by
    refine ⟨t.before ++ ("Init: ".toList ++ (t.start ++ t.fraction)), ?_⟩
    rw [List.append_assoc, List.append_assoc, List.append_assoc]
    rfl
  have hlength := hend.length_le
  rw [behind, List.length_cons, List.length_append] at hlength
  omega

end TimingsLine

/-- A line with a layout has one that counts. -/
theorem exists_counts (t : TimingsLine) : ∃ u : TimingsLine, u.chars = t.chars ∧ u.Counts := by
  -- The layout with the least text in front and then the least text that is not between.
  have hfounded : WellFounded (InvImage (Prod.Lex (· < ·) (· < ·)) fun u : TimingsLine =>
      (u.before.length, t.chars.length - u.between.length)) :=
    InvImage.wf _ (Prod.lex Nat.lt_wfRel Nat.lt_wfRel).wf
  rcases hfounded.has_min {u | u.chars = t.chars} ⟨t, rfl⟩ with ⟨u, hu, hmin⟩
  refine ⟨u, hu, fun v hv => ?_⟩
  have hnot := hmin v (hv.trans hu)
  have hwidth := v.length_between_le
  rw [hv.trans hu] at hwidth
  simp only [InvImage, Prod.lex_def] at hnot
  omega

/-- What is read is what the line says. A line can be laid out in more than one way, if its
    words stand in it several times, and the layouts that count are those which the search
    prefers. From left to right a match gives some layout of the line, which has the same text
    as one that counts. -/
theorem timings?_eq_some {line : List Char} {start average : Nat} :
    timings? line = some (start, average) ↔ IsTimings line start average := by
  -- Of a layout that counts, the numbers are read from their groups.
  have hread : ∀ t : TimingsLine, t.Counts →
      (timings? t.chars = some (start, average) ↔
        WritesNat t.start start ∧ WritesNat t.average average) := by
    intro t ht
    have hstart : Groups.get t.groups 1 = String.ofList t.start :=
      Groups.get_here 1 t.start _ _
    have haverage : Groups.get t.groups 2 = String.ofList t.average := by
      rw [TimingsLine.groups, Groups.get_further (by decide), Groups.get_further (by decide)]
      exact Groups.get_here 2 t.average t.after []
    rw [timings?, find_eq_search, t.search_chars ht, Option.bind_some, hstart, haverage, micros?,
      micros?, String.toList_ofList, String.toList_ofList, WritesNat, WritesNat,
      ← readNat?_eq_some t.start_decimal t.start_ne_nil,
      ← readNat?_eq_some t.average_decimal t.average_ne_nil]
    cases Text.readNat? Text.limit64 t.start with
    | none => simp only [reduceCtorEq, false_and]
    | some n => cases Text.readNat? Text.limit64 t.average with
      | none => simp only [reduceCtorEq, Option.some.injEq, and_false]
      | some m => simp only [Option.some.injEq, Prod.mk.injEq]
  -- Every match comes from a layout, and with the same line there is one that counts.
  constructor
  · intro h
    have hmatch := h
    rw [timings?, find_eq_search] at hmatch
    rcases Option.bind_eq_some_iff.mp hmatch with ⟨g, hg, _⟩
    rcases search_eq_some hg with ⟨skipped, piece, rest, rfl, hderives⟩
    rcases exists_timingsLine skipped hderives with ⟨t, _, ht⟩
    rcases exists_counts t with ⟨u, hu, hcounts⟩
    rw [← ht, ← hu] at h ⊢
    exact ⟨u, rfl, hcounts, (hread u hcounts).mp h⟩
  · rintro ⟨t, rfl, hcounts, hvalues⟩
    exact (hread t hcounts).mpr hvalues

end Report

end AccelMonitor
