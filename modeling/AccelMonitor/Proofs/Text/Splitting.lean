import AccelMonitor.Text.Blank
import AccelMonitor.Text.Digit
import Mathlib.Data.List.Induction
import Mathlib.Data.List.TakeWhile

/-!
# Splitting and Trimming

Where one part of a text ends and the next begins.

A line is read by several patterns and by hand, and all of these readings agree because a
text splits in one way at a character of some kind, first or last. What a kind is does not
matter for that. The kinds of characters that lines are made of are told apart here, too:
blanks and decimal digits have nothing in common, and a decimal digit is an ASCII one or
lies behind all of ASCII.

Trimming is a splitting of this sort. It takes the blanks off and stops where a character
of another kind stands.

## Main definitions

* `Text.IsTrimmed`: A text that is not blank at its ends.

## Theorems

* `split_run`, `split_run_end`, `split_mark`: Where a text splits.
* `isBlank_of_range`: Where no blanks lie.
* `isBlank_of_isDecimal`, `isDecimal_range`: Where decimal digits lie.
* `split_blanks_end`: The blanks at the end of a text.
* `IsTrimmed.trimList`, `trimList_append`, `exists_trimList`: Trimming takes blanks off and
  nothing else.
* `isTrimmed_trimList`, `trimList_eq_nil_iff`: What trimming leaves.
-/

namespace AccelMonitor

namespace Text

theorem forall_blank : ∀ c ∈ [' '], isBlank c = true :=
  List.forall_mem_singleton.mpr (by decide)

/-- What holds of the first character. -/
theorem head_char {P : Char → Prop} {c : Char} (hc : P c) (s : List Char) :
    ∀ d ∈ (c :: s).head?, P d := by
  intro d hd
  rw [← Option.some.inj hd]
  exact hc

/-- A text that begins with no blank does so whatever follows it. -/
theorem head_solid {s : List Char} (hs : (s.head?.any fun c => !isBlank c) = true)
    (rest : List Char) : ∀ c ∈ (s ++ rest).head?, isBlank c = false := by
  cases s with
  | nil => cases hs
  | cons d s =>
    rw [List.head?_cons, Option.any_some, Bool.not_eq_true'] at hs
    exact head_char hs _

/-- What holds of a run and of the first character behind it holds of the first of both. -/
theorem head_append {P : Char → Prop} {a b : List Char} (ha : ∀ c ∈ a, P c)
    (hb : ∀ c ∈ b.head?, P c) : ∀ c ∈ (a ++ b).head?, P c := by
  cases a with
  | nil => exact hb
  | cons d a =>
    intro c hc
    rw [List.cons_append, List.head?_cons, Option.mem_some_iff] at hc
    rw [← hc]
    exact ha d (List.mem_cons_self ..)

/-- A text splits in one way where the characters of a kind in front of it end. -/
theorem split_run {kind : Char → Bool} {a a' b b' : List Char} (ha : ∀ c ∈ a, kind c = true)
    (ha' : ∀ c ∈ a', kind c = true) (hb : ∀ c ∈ b.head?, kind c = false)
    (hb' : ∀ c ∈ b'.head?, kind c = false) (h : a ++ b = a' ++ b') : a = a' ∧ b = b' := by
  have hrun : ∀ {x y : List Char}, (∀ c ∈ x, kind c = true) →
      (∀ c ∈ y.head?, kind c = false) → (x ++ y).takeWhile kind = x := by
    intro x y hx hy
    rw [List.takeWhile_append_of_pos hx]
    cases y with
    | nil => exact List.append_nil x
    | cons c y =>
      rw [List.takeWhile_cons, if_neg (Bool.eq_false_iff.mp (hy c rfl)), List.append_nil]
  -- In both ways of splitting, the first part is the longest run of the kind.
  have hfront : a = a' := by rw [← hrun ha hb, h, hrun ha' hb']
  rw [hfront] at h
  exact ⟨hfront, List.append_cancel_left h⟩

/-- The same from the end of a text. -/
theorem split_run_end {kind : Char → Bool} {a a' b b' : List Char}
    (hb : ∀ c ∈ b, kind c = true) (hb' : ∀ c ∈ b', kind c = true)
    (ha : ∀ c ∈ a.getLast?, kind c = false) (ha' : ∀ c ∈ a'.getLast?, kind c = false)
    (h : a ++ b = a' ++ b') : a = a' ∧ b = b' := by
  have hreverse : b.reverse ++ a.reverse = b'.reverse ++ a'.reverse := by
    rw [← List.reverse_append, ← List.reverse_append, h]
  rw [← List.head?_reverse] at ha ha'
  rcases split_run (fun c hc => hb c (List.mem_reverse.mp hc))
    (fun c hc => hb' c (List.mem_reverse.mp hc)) ha ha' hreverse with ⟨hback, hfront⟩
  exact ⟨List.reverse_inj.mp hfront, List.reverse_inj.mp hback⟩

/-- A mark stands at its first place in a text or behind it. -/
theorem split_mark {mark : Char} {a b x y : List Char} (ha : mark ∉ a)
    (h : a ++ mark :: b = x ++ mark :: y) :
    (x = a ∧ y = b) ∨ ∃ x', x = a ++ mark :: x' ∧ b = x' ++ mark :: y := by
  have hother : ∀ {s : List Char}, mark ∉ s → ∀ c ∈ s, (c != mark) = true :=
    fun hs c hc => bne_iff_ne.mpr fun heq => hs (heq ▸ hc)
  have hmark : ∀ s : List Char, ∀ c ∈ (mark :: s).head?, (c != mark) = false := by
    intro s c hc
    rw [List.head?_cons, Option.mem_some_iff] at hc
    rw [hc, bne_self_eq_false]
  -- Up to its first mark, the text is a run of other characters.
  by_cases hx : mark ∈ x
  · rcases List.eq_append_cons_of_mem hx with ⟨front, x', rfl, hfront⟩
    rw [List.append_assoc, List.cons_append] at h
    rcases split_run (hother ha) (hother hfront) (hmark _) (hmark _) h with ⟨rfl, hrest⟩
    exact Or.inr ⟨x', rfl, (List.cons.inj hrest).2⟩
  · rcases split_run (hother ha) (hother hx) (hmark _) (hmark _) h with ⟨rfl, hrest⟩
    exact Or.inl ⟨rfl, (List.cons.inj hrest).2.symm⟩

/-- No blank lies among the digits and letters of ASCII. -/
theorem isBlank_of_range {c : Char} (hlow : 0x30 ≤ c.toNat) (hhigh : c.toNat ≤ 0x7a) :
    isBlank c = false := by
  have hends : ∀ range ∈ blankRanges, range.2 < 0x30 ∨ 0x7a < range.1 := by
    decide
  rw [isBlank, List.any_eq_false]
  intro range hrange hblank
  rw [Bool.and_eq_true, decide_eq_true_eq, decide_eq_true_eq] at hblank
  have hend := hends range hrange
  omega

/-- No decimal digit is a blank. -/
theorem isBlank_of_isDecimal {c : Char} (h : isDecimal c = true) : isBlank c = false := by
  rcases List.any_eq_true.mp h with ⟨run, hrun, hc⟩
  rw [Bool.and_eq_true, decide_eq_true_eq, decide_eq_true_eq] at hc
  have happart : ∀ run ∈ decimalRuns, ∀ range ∈ blankRanges,
      run.1 + run.2 ≤ range.1 ∨ range.2 < run.1 := by
    decide
  rw [isBlank, List.any_eq_false]
  intro range hrange hblank
  rw [Bool.and_eq_true, decide_eq_true_eq, decide_eq_true_eq] at hblank
  have hapart := happart run hrun range hrange
  omega

/-- No blank is a decimal digit. -/
theorem isDecimal_of_isBlank {c : Char} (h : isBlank c = true) : isDecimal c = false := by
  rw [← Bool.not_eq_true]
  intro hdecimal
  rw [isBlank_of_isDecimal hdecimal] at h
  exact Bool.false_ne_true h

/-- A decimal digit is one of the ASCII digits or lies far behind all of ASCII. -/
theorem isDecimal_range {c : Char} (h : isDecimal c = true) :
    (0x30 ≤ c.toNat ∧ c.toNat ≤ 0x39) ∨ 0x660 ≤ c.toNat := by
  rcases List.any_eq_true.mp h with ⟨r, hr, hc⟩
  rw [Bool.and_eq_true, decide_eq_true_eq, decide_eq_true_eq] at hc
  have hruns : ∀ r ∈ decimalRuns, (0x30 ≤ r.1 ∧ r.1 + r.2 ≤ 0x3a) ∨ 0x660 ≤ r.1 := by
    decide
  have hrun := hruns r hr
  omega

/-- A decimal digit that is ASCII is one of the ten. -/
theorem isDigit_of_isDecimal {c : Char} (hc : isDecimal c = true) (hascii : c.toNat < 128) :
    isDigit c = true := by
  have hrange := isDecimal_range hc
  have hlow : '0' ≤ c := show 0x30 ≤ c.toNat by omega
  have hhigh : c ≤ '9' := show c.toNat ≤ 0x39 by omega
  unfold isDigit
  simp only [hlow, hhigh, decide_true, Bool.and_self]

/-- Blanks in front of a text that does not start blank are dropped. -/
theorem dropBlanks_append {gap rest : List Char} (hgap : ∀ c ∈ gap, isBlank c = true)
    (hrest : ∀ c ∈ rest.head?, isBlank c = false) :
    dropBlanks (gap ++ rest) = rest := by
  rw [dropBlanks, List.dropWhile_append_of_pos hgap]
  exact dropBlanks_eq_self hrest

/-- The text neither begins nor ends with a blank. -/
structure IsTrimmed (s : List Char) : Prop where
  head : ∀ c ∈ s.head?, isBlank c = false
  last : ∀ c ∈ s.getLast?, isBlank c = false

theorem isTrimmed_of {s : List Char} (hhead : (s.head?.all fun c => !isBlank c) = true)
    (hlast : (s.getLast?.all fun c => !isBlank c) = true) : IsTrimmed s := by
  constructor
  · intro c hc
    rw [hc, Option.all_some, Bool.not_eq_true'] at hhead
    exact hhead
  · intro c hc
    rw [hc, Option.all_some, Bool.not_eq_true'] at hlast
    exact hlast

theorem IsTrimmed.trimList {s : List Char} (h : IsTrimmed s) : Text.trimList s = s := by
  have hend : dropBlanks s.reverse = s.reverse := by
    refine dropBlanks_eq_self fun c hc => h.last c ?_
    rw [List.head?_reverse] at hc
    exact hc
  rw [Text.trimList, dropBlanks_eq_self h.head, dropBlanksEnd, hend, List.reverse_reverse]

/-- A text is one that does not end with a blank and some blanks. By induction from the end: the
    last character belongs to the blanks or is where the rest ends. -/
theorem split_blanks_end (s : List Char) :
    ∃ front back, s = front ++ back ∧ (∀ c ∈ front.getLast?, isBlank c = false) ∧
      ∀ c ∈ back, isBlank c = true := by
  induction s using List.reverseRecOn with
  | nil => exact ⟨[], [], rfl, (fun c hc => nomatch hc), List.forall_mem_nil _⟩
  | append_singleton s c ih =>
    cases hc : isBlank c with
    | true =>
      rcases ih with ⟨front, back, rfl, hfront, hback⟩
      refine ⟨front, back ++ [c], List.append_assoc .., hfront, ?_⟩
      rw [List.forall_mem_append, List.forall_mem_singleton]
      exact ⟨hback, hc⟩
    | false =>
      refine ⟨s ++ [c], [], (List.append_nil _).symm, ?_, List.forall_mem_nil _⟩
      rw [List.getLast?_concat]
      intro d hd
      rw [← Option.some.inj hd]
      exact hc

/-- Trimming takes the blanks around a text off, and nothing more if the text itself neither
    begins nor ends with one. -/
theorem trimList_append {before s after : List Char} (hbefore : ∀ c ∈ before, isBlank c = true)
    (hs : IsTrimmed s) (hne : s ≠ []) (hafter : ∀ c ∈ after, isBlank c = true) :
    Text.trimList (before ++ (s ++ after)) = s := by
  have hhead : ∀ c ∈ (s ++ after).head?, isBlank c = false := by
    cases s with
    | nil => exact absurd rfl hne
    | cons d s => exact hs.head
  have hlast : ∀ c ∈ s.reverse.head?, isBlank c = false := by
    intro c hc
    rw [List.head?_reverse] at hc
    exact hs.last c hc
  have hreverse : ∀ c ∈ after.reverse, isBlank c = true :=
    fun c hc => hafter c (List.mem_reverse.mp hc)
  -- From the front, and then the same from the back on the reversed text.
  rw [Text.trimList, dropBlanks_append hbefore hhead, dropBlanksEnd, List.reverse_append,
    dropBlanks_append hreverse hlast, List.reverse_reverse]

/-- A text consists of the trimmed text and the blanks around it. -/
theorem exists_trimList (s : List Char) :
    ∃ before after, s = before ++ (trimList s ++ after) ∧
      (∀ c ∈ before, isBlank c = true) ∧ ∀ c ∈ after, isBlank c = true := by
  refine ⟨s.takeWhile isBlank, ((dropBlanks s).reverse.takeWhile isBlank).reverse, ?_, ?_, ?_⟩
  · have hend : dropBlanksEnd (dropBlanks s)
        ++ ((dropBlanks s).reverse.takeWhile isBlank).reverse = dropBlanks s := by
      rw [dropBlanksEnd, ← List.reverse_append]
      exact congrArg List.reverse List.takeWhile_append_dropWhile |>.trans (List.reverse_reverse _)
    rw [trimList, hend]
    exact List.takeWhile_append_dropWhile.symm
  · exact fun c hc => List.all_eq_true.mp List.all_takeWhile c hc
  · exact fun c hc => List.all_eq_true.mp List.all_takeWhile c (List.mem_reverse.mp hc)

/-- Trimming leaves nothing of a blank text, and only of that. -/
theorem trimList_eq_nil_iff {s : List Char} : trimList s = [] ↔ ∀ c ∈ s, isBlank c = true := by
  constructor
  · intro h
    rcases exists_trimList s with ⟨before, after, hs, hbefore, hafter⟩
    rw [h, List.nil_append] at hs
    rw [hs, List.forall_mem_append]
    exact ⟨hbefore, hafter⟩
  · intro h
    have hnil : dropBlanks s = [] := List.dropWhile_eq_nil_iff.mpr h
    rw [trimList, hnil]
    rfl

theorem head?_dropBlanks (s : List Char) : ∀ c ∈ (dropBlanks s).head?, isBlank c = false := by
  intro c hc
  have hfirst := List.head?_dropWhile_not isBlank s
  rw [dropBlanks, Option.mem_def] at hc
  rw [hc] at hfirst
  exact hfirst

/-- What trimming leaves is trimmed. -/
theorem isTrimmed_trimList (s : List Char) : IsTrimmed (trimList s) := by
  constructor
  · intro c hc
    have hfront : trimList s <+: dropBlanks s := by
      rw [← List.reverse_suffix, trimList, dropBlanksEnd, List.reverse_reverse]
      exact List.dropWhile_suffix isBlank
    rcases hfront with ⟨rest, hrest⟩
    refine head?_dropBlanks s c ?_
    rw [← hrest, List.head?_append, Option.mem_def.mp hc]
    rfl
  · intro c hc
    rw [trimList, dropBlanksEnd, List.getLast?_reverse] at hc
    exact head?_dropBlanks _ c hc

end Text

end AccelMonitor
