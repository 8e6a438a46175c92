import AccelMonitor.Number.Reading

/-!
# What Can Be Read

Which texts write a number, as far as it matters outside of the notation.

There are two ways to write one. `readList_eq_ok` tells them apart: a text that is read,
without its sign, is either a decimal or one of the words, and the words are those for
infinity and for the value that is not a number. A single character of another kind
excludes the words, and with them that value. And every character of the notation is ASCII,
so a digit of another script is an end to it wherever it stands.

## Theorems

* `Literal.forall_ascii_of_unsigned?`: A decimal is ASCII.
* `named?_eq_some`: The words.
* `readList_eq_ok`: What is read is a decimal or a word.
* `isNumber_of_readList`: A text with a character of its own writes a number.
* `forall_ascii_of_readList`: A text that is read is ASCII.
-/

namespace AccelMonitor

namespace Literal

/-- A character that is not a sign stays when a sign is split off. -/
theorem mem_splitSign {c : Char} {s : List Char} (hc : c ∈ s) (hm : c ≠ '-') (hp : c ≠ '+') :
    c ∈ (splitSign s).2 := by
  unfold splitSign
  split
  · exact (List.mem_cons.mp hc).resolve_left hm
  · exact (List.mem_cons.mp hc).resolve_left hp
  · exact hc

/-- A text is ASCII if it is so behind its sign. -/
theorem forall_ascii_of_splitSign {s : List Char} (h : ∀ c ∈ (splitSign s).2, c.toNat < 128) :
    ∀ c ∈ s, c.toNat < 128 := by
  intro c hc
  by_cases hm : c = '-'
  · rw [hm]
    decide
  · by_cases hp : c = '+'
    · rw [hp]
      decide
    · exact h c (mem_splitSign hc hm hp)

theorem ascii_of_isDigit {c : Char} (h : Text.isDigit c = true) : c.toNat < 128 := by
  simp only [Text.isDigit, Bool.and_eq_true, decide_eq_true_eq] at h
  have hhigh : c.toNat ≤ 0x39 := h.2
  omega

/-- An exponent that is read consists of ASCII: the letter for it, perhaps a sign, and digits. -/
theorem forall_ascii_of_exponentPart? {s : List Char} {e : Int} (h : exponentPart? s = some e) :
    ∀ c ∈ s, c.toNat < 128 := by
  cases s with
  | nil => exact List.forall_mem_nil _
  | cons mark rest =>
    by_cases hmark : mark = 'e' ∨ mark = 'E'
    · rw [exponentPart?, if_pos hmark] at h
      simp only [exponentOf?] at h
      split at h
      · rename_i hdigits
        have hrest : ∀ c ∈ rest, c.toNat < 128 :=
          forall_ascii_of_splitSign fun c hc =>
            ascii_of_isDigit (List.all_eq_true.mp hdigits.2 c hc)
        intro c hc
        rcases List.mem_cons.mp hc with rfl | hc
        · rcases hmark with rfl | rfl
          · decide
          · decide
        · exact hrest c hc
      · cases h
    · rw [exponentPart?, if_neg hmark] at h
      cases h

/-- Where a text can have a fraction it consists of the point, digits and the rest. -/
theorem mem_fraction {s : List Char} {c : Char} (hc : c ∈ s) :
    c = '.' ∨ Text.isDigit c = true ∨ c ∈ (fraction s).2 := by
  unfold fraction
  split
  · rename_i rest
    rcases List.mem_cons.mp hc with hc | hc
    · exact Or.inl hc
    · rw [← List.takeWhile_append_dropWhile (p := Text.isDigit) (l := rest)] at hc
      rcases List.mem_append.mp hc with hc | hc
      · exact Or.inr (Or.inl (List.all_eq_true.mp (List.all_takeWhile ..) c hc))
      · exact Or.inr (Or.inr hc)
  · exact Or.inr (Or.inr hc)

/-- A decimal is ASCII, for it has been read to its end. -/
theorem forall_ascii_of_unsigned? {negative : Bool} {s : List Char} {l : Literal}
    (h : unsigned? negative s = some l) : ∀ c ∈ s, c.toNat < 128 := by
  simp only [unsigned?] at h
  split at h
  · cases h
  · rcases Option.map_eq_some_iff.mp h with ⟨e, he, _⟩
    intro c hc
    -- The digits in front, then what was read as fraction and exponent.
    rw [← List.takeWhile_append_dropWhile (p := Text.isDigit) (l := s)] at hc
    rcases List.mem_append.mp hc with hc | hc
    · exact ascii_of_isDigit (List.all_eq_true.mp (List.all_takeWhile ..) c hc)
    · rcases mem_fraction hc with rfl | hdigit | hc
      · decide
      · exact ascii_of_isDigit hdigit
      · exact forall_ascii_of_exponentPart? he c hc

end Literal

namespace Binary64

/-- The words are those for infinity and for the value that is not a number. -/
theorem named?_eq_some {negative : Bool} {s : List Char} {v : Binary64}
    (h : named? negative s = some v) :
    (v.isNumber = true ∧ (s.map lowerAscii = "inf".toList ∨ s.map lowerAscii = "infinity".toList)) ∨
      s.map lowerAscii = "nan".toList := by
  unfold named? at h
  by_cases hinf : s.map lowerAscii = "inf".toList ∨ s.map lowerAscii = "infinity".toList
  · simp only [if_pos hinf, Option.some.injEq] at h
    refine Or.inl ⟨?_, hinf⟩
    rw [← h]
    rfl
  · by_cases hnan : s.map lowerAscii = "nan".toList
    · exact Or.inr hnan
    · simp only [if_neg hinf, if_neg hnan, reduceCtorEq] at h

/-- A text whose small form is ASCII is ASCII itself. -/
theorem forall_ascii_of_map_lowerAscii {s word : List Char} (h : s.map lowerAscii = word)
    (hword : (word.all fun c => decide (c.toNat < 128)) = true) : ∀ c ∈ s, c.toNat < 128 := by
  intro c hc
  by_cases hcapital : 'A' ≤ c ∧ c ≤ 'Z'
  · have hhigh : c.toNat ≤ 0x5a := hcapital.2
    omega
  · -- Only capitals are changed.
    have hlower : lowerAscii c ∈ word := by
      rw [← h]
      exact List.mem_map_of_mem hc
    rw [lowerAscii, if_neg hcapital] at hlower
    exact of_decide_eq_true (List.all_eq_true.mp hword c hlower)

/-- What is read is a decimal or a word, behind a sign. A word is tried only where there is no
    decimal. -/
theorem readList_eq_ok {s : List Char} {v : Binary64} (h : readList s = .ok v) :
    (∃ l, Literal.unsigned? (Literal.splitSign s).1 (Literal.splitSign s).2 = some l ∧
      v = l.value) ∨
    named? (Literal.splitSign s).1 (Literal.splitSign s).2 = some v := by
  rw [readList] at h
  split at h
  · cases h
  · cases hl : Literal.unsigned? (Literal.splitSign s).1 (Literal.splitSign s).2 with
    | some l =>
      simp only [hl, Except.ok.injEq] at h
      exact Or.inl ⟨l, rfl, h.symm⟩
    | none =>
      cases hw : named? (Literal.splitSign s).1 (Literal.splitSign s).2 with
      | some w =>
        simp only [hl, hw, Except.ok.injEq] at h
        exact Or.inr (congrArg some h)
      | none => simp only [hl, hw, reduceCtorEq] at h

/-- A text writes a number, and not the value that is none, if it holds a character that
    is neither a sign nor a letter of that value's name. -/
theorem isNumber_of_readList {s : List Char} {v : Binary64} {c : Char}
    (h : readList s = .ok v) (hc : c ∈ s) (hm : c ≠ '-') (hp : c ≠ '+')
    (hname : lowerAscii c ∉ "nan".toList) : v.isNumber = true := by
  have hrest : c ∈ (Literal.splitSign s).2 := Literal.mem_splitSign hc hm hp
  rcases readList_eq_ok h with ⟨l, _, rfl⟩ | hword
  · exact l.value_isNumber
  · rcases named?_eq_some hword with ⟨hnumber, _⟩ | hnan
    · exact hnumber
    · rw [← hnan] at hname
      exact absurd (List.mem_map_of_mem hrest) hname

/-- A text that is read is ASCII. -/
theorem forall_ascii_of_readList {s : List Char} {v : Binary64} (h : readList s = .ok v) :
    ∀ c ∈ s, c.toNat < 128 := by
  refine Literal.forall_ascii_of_splitSign ?_
  rcases readList_eq_ok h with ⟨l, hl, _⟩ | hword
  · exact Literal.forall_ascii_of_unsigned? hl
  · rcases named?_eq_some hword with ⟨_, hinf | hinf⟩ | hnan
    · exact forall_ascii_of_map_lowerAscii hinf (by decide)
    · exact forall_ascii_of_map_lowerAscii hinf (by decide)
    · exact forall_ascii_of_map_lowerAscii hnan (by decide)

/-- What is not read, although there is a text, is not in the notation. -/
theorem readList_eq_error {s : List Char} {fault : NumberFault} (h : readList s = .error fault)
    (hs : s ≠ []) : fault = .malformed := by
  simp only [readList, if_neg hs] at h
  split at h
  · cases h
  · cases h
  · exact (Except.error.inj h).symm

end Binary64

end AccelMonitor
