import AccelMonitor.KernelLog.Line
import AccelMonitor.Proofs.Pattern.Choice

/-!
# The Heading of a Probe Line

The grammar of a probe line, part by part.

A probe line starts with a bracket. Blanks may follow, then come the seconds with a
point among their digits, blanks again, the closing bracket and at least one blank.
That is the heading, and the probe's keyword stands right behind it. The digits may
be those of any script.

The heading is matched by one pattern with greedy runs in it, which can give back what
they took. None of this has a say in what is matched. Every part ends where a character
of another kind stands, so a line has one heading at most. `eq_of_chars` proves it, and
with it the question which of several matches is found does not arise.

## Main definitions

* `Heading`: What stands in front of a keyword.
* `Heading.seconds`: The digits of the time and the point.
* `Heading.chars`: The heading as it is written.
* `KernelLog.Headed`: A line has a heading and then the keyword of a probe.

## Theorems

* `derives`, `of_derives`: What the pattern of a stamp matches.
* `eq_of_chars`: A line has at most one heading.
* `mem_chars`: The characters of a heading.
-/

namespace AccelMonitor

/-- What stands in front of the keyword of a probe line: a bracket, blanks, digits with a point
    between them, blanks, the closing bracket and at least one blank. The digits need not be
    ASCII ones. -/
structure Heading where
  before : List Char
  whole : List Char
  part : List Char
  after : List Char
  gap : List Char
  before_blank : ∀ c ∈ before, Text.isBlank c = true
  whole_ne_nil : whole ≠ []
  whole_decimal : ∀ c ∈ whole, Text.isDecimal c = true
  part_ne_nil : part ≠ []
  part_decimal : ∀ c ∈ part, Text.isDecimal c = true
  after_blank : ∀ c ∈ after, Text.isBlank c = true
  gap_ne_nil : gap ≠ []
  gap_blank : ∀ c ∈ gap, Text.isBlank c = true

namespace Heading

/-- The seconds since the kernel started. -/
def seconds (h : Heading) : List Char :=
  h.whole ++ '.' :: h.part

/-- The heading as it is written. -/
def chars (h : Heading) : List Char :=
  '[' :: (h.before ++ (h.whole ++ '.' :: (h.part ++ (h.after ++ ']' :: h.gap))))

/-- The pattern of a stamp matches every heading. -/
theorem derives (h : Heading) (rest : List Char) : KernelLog.stamp.Derives h.chars rest [] :=
  ⟨['['], _, [], [], rfl, rfl, ⟨rfl, rfl⟩,
    h.before, _, [], [], rfl, rfl, ⟨h.before_blank, rfl⟩,
    h.whole, _, [], [], rfl, rfl, Pattern.derives_some1 h.whole_ne_nil h.whole_decimal _,
    ['.'], _, [], [], rfl, rfl, ⟨rfl, rfl⟩,
    h.part, _, [], [], rfl, rfl, Pattern.derives_some1 h.part_ne_nil h.part_decimal _,
    h.after, _, [], [], rfl, rfl, ⟨h.after_blank, rfl⟩,
    [']'], h.gap, [], [], rfl, rfl, ⟨rfl, rfl⟩, Pattern.derives_some1 h.gap_ne_nil h.gap_blank _⟩

/-- The pattern of a stamp matches nothing but headings, so a match gives the parts of one. -/
theorem of_derives {piece rest : List Char} {g : Groups}
    (h : KernelLog.stamp.Derives piece rest g) : ∃ heading : Heading, piece = heading.chars := by
  -- One part of the pattern after the other, from bracket to gap.
  rcases h with ⟨_, _, _, _, rfl, _, ⟨rfl, _⟩, h⟩
  rcases h with ⟨before, _, _, _, rfl, _, ⟨hbefore, _⟩, h⟩
  rcases h with ⟨whole, _, _, _, rfl, _, hwhole, h⟩
  rcases h with ⟨_, _, _, _, rfl, _, ⟨rfl, _⟩, h⟩
  rcases h with ⟨part, _, _, _, rfl, _, hpart, h⟩
  rcases h with ⟨after, _, _, _, rfl, _, ⟨hafter, _⟩, h⟩
  rcases h with ⟨_, gap, _, _, rfl, _, ⟨rfl, _⟩, hgap⟩
  rcases Pattern.derives_some1_iff.mp hwhole with ⟨hwhole_ne, hwhole, _⟩
  rcases Pattern.derives_some1_iff.mp hpart with ⟨hpart_ne, hpart, _⟩
  rcases Pattern.derives_some1_iff.mp hgap with ⟨hgap_ne, hgap, _⟩
  exact ⟨⟨before, whole, part, after, gap, hbefore, hwhole_ne, hwhole, hpart_ne, hpart, hafter,
    hgap_ne, hgap⟩, rfl⟩

/-- A line has at most one heading: the parts of two end at the same places. A part is a run of
    one kind of characters, blanks or digits, and what follows it begins with another kind. Two
    headings of one line are therefore the same part by part, from the bracket on. -/
theorem eq_of_chars {h h' : Heading} {rest rest' : List Char}
    (hrest : ∀ c ∈ rest.head?, Text.isBlank c = false)
    (hrest' : ∀ c ∈ rest'.head?, Text.isBlank c = false)
    (heq : h.chars ++ rest = h'.chars ++ rest') : h = h' ∧ rest = rest' := by
  -- What follows each part does not begin like one more character of it.
  have hsolid : ∀ (h : Heading) (s : List Char),
      ∀ c ∈ (h.whole ++ '.' :: s).head?, Text.isBlank c = false := fun h s =>
    Text.head_append (fun c hc => Text.isBlank_of_isDecimal (h.whole_decimal c hc))
      (Text.head_char (by decide) s)
  have hpoint : ∀ s, ∀ c ∈ ('.' :: s).head?, Text.isDecimal c = false := by
    intro s c hc
    rw [← Option.some.inj hc]
    decide
  have hclose : ∀ (h : Heading) (s : List Char),
      ∀ c ∈ (h.after ++ ']' :: s).head?, Text.isDecimal c = false := fun h s => by
    refine Text.head_append (fun c hc => ?_) (fun c hc => ?_)
    · exact Text.isDecimal_of_isBlank (h.after_blank c hc)
    · rw [← Option.some.inj hc]
      decide
  have hbracket : ∀ s, ∀ c ∈ (']' :: s).head?, Text.isBlank c = false :=
    Text.head_char (by decide)
  -- From bracket to gap, each part ends where the characters of its kind do.
  unfold chars at heq
  simp only [List.cons_append, List.append_assoc, List.cons.injEq, true_and] at heq
  obtain ⟨hbefore, heq⟩ :=
    Text.split_run h.before_blank h'.before_blank (hsolid h _) (hsolid h' _) heq
  obtain ⟨hwhole, heq⟩ :=
    Text.split_run h.whole_decimal h'.whole_decimal (hpoint _) (hpoint _) heq
  obtain ⟨hpart, heq⟩ := Text.split_run h.part_decimal h'.part_decimal (hclose h _) (hclose h' _)
    (List.cons.inj heq).2
  obtain ⟨hafter, heq⟩ :=
    Text.split_run h.after_blank h'.after_blank (hbracket _) (hbracket _) heq
  obtain ⟨hgap, heq⟩ :=
    Text.split_run h.gap_blank h'.gap_blank hrest hrest' (List.cons.inj heq).2
  refine ⟨?_, heq⟩
  cases h
  cases h'
  simp only at hbefore hwhole hpart hafter hgap
  subst hbefore hwhole hpart hafter hgap
  rfl

/-- A heading consists of blanks, digits and a few marks. -/
theorem mem_chars {h : Heading} {c : Char} (hc : c ∈ h.chars) :
    Text.isBlank c = true ∨ Text.isDecimal c = true ∨ c ∈ ['[', '.', ']'] := by
  simp only [chars, List.mem_cons, List.mem_append] at hc
  rcases hc with rfl | hc | hc | rfl | hc | hc | rfl | hc
  · decide
  · exact Or.inl (h.before_blank c hc)
  · exact Or.inr (Or.inl (h.whole_decimal c hc))
  · decide
  · exact Or.inr (Or.inl (h.part_decimal c hc))
  · exact Or.inl (h.after_blank c hc)
  · decide
  · exact Or.inl (h.gap_blank c hc)

end Heading

namespace KernelLog

/-- The line has a heading, and the keyword of the probe follows. -/
def Headed (line : List Char) (p : KernelProbe) : Prop :=
  ∃ (h : Heading) (rest : List Char), line = h.chars ++ (p.keyword.toList ++ rest)

end KernelLog

end AccelMonitor
