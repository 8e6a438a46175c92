import AccelMonitor.Proofs.KernelLog.Keyword
import AccelMonitor.Proofs.Number.Notation

/-!
# The Time of a Probe Line

What recognising a probe line says about reading its time.

A line is recognised and timed independently. The recogniser looks for brackets
with digits, a point and digits between them, where a digit may be one of any
script; the reader evaluates whatever stands in the first brackets, and accepts
the names of infinity and of the value that is not a number. They agree on the
text. The first closing bracket of a line with a heading is that of the heading,
and trimming what stands in front of it leaves the seconds.

A watermark must never become the value that is not a number, because nothing
compares with it. `isNumber_of_probe?` rules it out: the seconds of a heading have
a point in them, and a text with a point in it is no name.

## Theorems

* `Heading.ne_bracket`: The first closing bracket is that of the heading.
* `Heading.bracketed?_chars`: What is read of a heading is its seconds.
* `heading_of_probe?`: A probe line begins with a heading.
* `isNumber_of_probe?`: The time of a probe line is a number.
-/

namespace AccelMonitor

namespace Heading

variable (h : Heading)

/-- No blank and no digit is a closing bracket, so the first one is that of the heading. -/
theorem ne_bracket : ∀ c ∈ h.before ++ (h.seconds ++ h.after), (c != ']') = true := by
  intro c hc
  rw [bne_iff_ne]
  rintro rfl
  simp only [seconds, List.mem_append, List.mem_cons] at hc
  rcases hc with hc | (hc | hc | hc) | hc
  · exact absurd (h.before_blank _ hc) (by decide)
  · exact absurd (h.whole_decimal _ hc) (by decide)
  · exact absurd hc (by decide)
  · exact absurd (h.part_decimal _ hc) (by decide)
  · exact absurd (h.after_blank _ hc) (by decide)

theorem seconds_ne_nil : h.seconds ≠ [] :=
  List.append_ne_nil_of_right_ne_nil _ (List.cons_ne_nil _ _)

/-- The seconds begin and end with a digit, and no digit is a blank. -/
theorem seconds_trimmed : Text.IsTrimmed h.seconds := by
  constructor
  · refine Text.head_append (fun c hc => ?_) (Text.head_char (by decide) h.part)
    exact Text.isBlank_of_isDecimal (h.whole_decimal c hc)
  · intro c hc
    rw [seconds, List.append_cons, List.getLast?_append,
      List.getLast?_eq_some_getLast h.part_ne_nil, Option.some_or, Option.mem_some_iff] at hc
    rw [← hc]
    exact Text.isBlank_of_isDecimal (h.part_decimal _ (List.getLast_mem h.part_ne_nil))

/-- What is read of a heading is its seconds. The reader takes what stands between the brackets
    and trims it, and a heading has nothing else there but blanks. -/
theorem bracketed?_chars (rest : List Char) :
    KernelLog.bracketed? (h.chars ++ rest) = some h.seconds := by
  have hchars : h.chars ++ rest
      = '[' :: ((h.before ++ (h.seconds ++ h.after)) ++ ']' :: (h.gap ++ rest)) := by
    simp only [chars, seconds, List.cons_append, List.append_assoc]
  -- A bracket comes first, so no blank is dropped.
  have hdrop : Text.dropBlanks (h.chars ++ rest) = h.chars ++ rest := by
    rw [hchars]
    exact Text.dropBlanks_eq_self (Text.head_char (by decide) _)
  rw [KernelLog.bracketed?, hdrop, hchars]
  simp only [List.contains_eq_mem, List.mem_append, List.mem_cons, true_or, or_true,
    decide_true, if_true]
  rw [List.takeWhile_append_of_pos h.ne_bracket, List.takeWhile_cons, if_neg (by decide),
    List.append_nil,
    Text.trimList_append h.before_blank h.seconds_trimmed h.seconds_ne_nil h.after_blank]

end Heading

namespace KernelLog

/-- A probe line begins with a heading. -/
theorem heading_of_probe? {probes : List KernelProbe} {line : String} {p : KernelProbe}
    (h : probe? probes line = some p) :
    ∃ (heading : Heading) (rest : List Char), line.toList = heading.chars ++ rest := by
  rcases (probe?_eq_some.mp h).2 with ⟨heading, rest, hline⟩
  exact ⟨heading, _, hline⟩

/-- The time of a probe line is a number. The reader of numbers also knows words for values that
    are none, but the seconds of a heading have a point. -/
theorem isNumber_of_probe? {probes : List KernelProbe} {line : String} {t : Binary64}
    (h : (probe? probes line).isSome = true) (ht : time line = .ok t) : t.isNumber = true := by
  rcases Option.isSome_iff_exists.mp h with ⟨p, hp⟩
  rcases heading_of_probe? hp with ⟨heading, rest, hline⟩
  rw [time, hline, heading.bracketed?_chars] at ht
  cases hread : Binary64.readList heading.seconds with
  | error fault =>
    simp only [hread, reduceCtorEq] at ht
  | ok v =>
    simp only [hread, Except.ok.injEq] at ht
    rw [← ht]
    -- No word for a value has a point in it.
    have hpoint : '.' ∈ heading.seconds := List.mem_append_right _ (List.mem_cons_self ..)
    exact Binary64.isNumber_of_readList hread hpoint (by decide) (by decide) (by decide)

end KernelLog

end AccelMonitor
