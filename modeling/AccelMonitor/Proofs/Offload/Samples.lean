import AccelMonitor.Offload
import AccelMonitor.Proofs.Number.Notation
import AccelMonitor.Proofs.Pattern.Derivation
import AccelMonitor.Proofs.Text.Splitting

/-!
# Samples Are Numbers

What the seconds of a timing line can be.

The reader of numbers accepts the word for the value that is not a number, and one such
sample would make every sum that it goes into worthless. The pattern of a timing line
rules it out: its seconds have a decimal digit in them, and no word has. The seconds can
still be too large for the format and become infinite.

## Theorems

* `all_concat_derives`: The last pattern of a sequence.
* `seconds_derives`: Seconds have a digit.
* `isNumber_of_sample?`: A sample of a timing line is a number.
-/

namespace AccelMonitor

namespace Pattern

/-- In a match of some patterns in a row the last one matches at the end, and the places in
    front of its own belong to the others. -/
theorem all_concat_derives {ps : List Pattern} {q : Pattern} {piece rest : List Char} {g : Groups}
    (h : (all (ps ++ [q])).Derives piece rest g) :
    ∃ left right before after, piece = left ++ right ∧ g = before ++ after ∧
      (∀ place ∈ before, place.1 ∈ ps.flatMap groupNumbers) ∧ q.Derives right rest after := by
  induction ps generalizing piece g with
  | nil => exact ⟨[], piece, [], g, rfl, rfl, List.forall_mem_nil _, h⟩
  | cons p ps ih =>
    -- There is a pattern behind this one, so the sequence does not end here.
    have hseq : all (p :: ps ++ [q]) = seq p (all (ps ++ [q])) := by
      cases ps with
      | nil => rfl
      | cons p' ps => rfl
    rw [hseq] at h
    rcases h with ⟨first, others, before, after, rfl, rfl, hp, hothers⟩
    rcases ih hothers with ⟨left, right, inner, last, rfl, rfl, hinner, hq⟩
    refine ⟨first ++ left, right, before ++ inner, last, ?_, ?_, ?_, hq⟩
    · rw [List.append_assoc]
    · rw [List.append_assoc]
    · intro place hplace
      rw [List.flatMap_cons, List.mem_append]
      rcases List.mem_append.mp hplace with hplace | hplace
      · exact Or.inl (hp.mem_groupNumbers place hplace)
      · exact Or.inr (hinner place hplace)

end Pattern

namespace Offload

open Pattern

/-- A decimal digit is no sign and no letter of a word for a value. -/
theorem not_word_of_isDecimal {c : Char} (h : Text.isDecimal c = true) :
    c ≠ '-' ∧ c ≠ '+' ∧ Binary64.lowerAscii c ∉ "nan".toList := by
  have hrange := Text.isDecimal_range h
  -- Only capitals are lowered, and no digit is one.
  have hcapital : ¬ ('A' ≤ c ∧ c ≤ 'Z') := by
    rintro ⟨hlow, hhigh⟩
    have hlow' : 0x41 ≤ c.toNat := hlow
    have hhigh' : c.toNat ≤ 0x5a := hhigh
    omega
  have hother : ∀ d : Char, d.toNat < 0x30 ∨ (0x39 < d.toNat ∧ d.toNat < 0x660) → c ≠ d := by
    rintro d hd rfl
    omega
  rw [Binary64.lowerAscii, if_neg hcapital]
  refine ⟨hother '-' (by decide), hother '+' (by decide), fun hmem => ?_⟩
  simp only [String.reduceToList, List.mem_cons, List.not_mem_nil, or_false] at hmem
  rcases hmem with hn | ha | hn
  · exact hother 'n' (by decide) hn
  · exact hother 'a' (by decide) ha
  · exact hother 'n' (by decide) hn

/-- What the pattern of seconds matches is its group, and it has a digit in it. -/
theorem seconds_derives {i : Nat} {piece rest : List Char} {g : Groups}
    (h : (secondsPattern i).Derives piece rest g) :
    g = [(i, piece ++ rest), (i, rest)] ∧ ∃ c ∈ piece, Text.isDecimal c = true := by
  rcases h with ⟨inner, rfl, hinner⟩
  refine ⟨by rw [hinner.groups_eq_nil rfl, List.nil_append], ?_⟩
  -- Behind the sign come one or more digits, the first of which is needed.
  rcases hinner with ⟨sign, _, _, _, rfl, _, _, hdigits⟩
  rcases hdigits with ⟨_, others, _, _, rfl, _, ⟨_, _, _, _, rfl, _, ⟨⟨c, hc, rfl⟩, _⟩, _⟩, _⟩
  refine ⟨c, ?_, hc⟩
  simp only [List.mem_append, List.mem_cons, true_or, or_true]

/-- A text with seconds in it stands for a number, if for anything. -/
theorem isNumber_of_seconds? {piece : List Char} {t : Binary64} {c : Char} (hc : c ∈ piece)
    (hdigit : Text.isDecimal c = true) (h : seconds? (String.ofList piece) = some t) :
    t.isNumber = true := by
  rcases not_word_of_isDecimal hdigit with ⟨hminus, hplus, hname⟩
  rw [seconds?, Binary64.read, String.toList_ofList] at h
  cases hread : Binary64.readList piece with
  | error fault =>
    rw [hread] at h
    cases h
  | ok v =>
    rw [hread] at h
    rw [← Option.some.inj h]
    exact Binary64.isNumber_of_readList hread hc hminus hplus hname

theorem isNumber_neg {t : Binary64} (h : t.isNumber = true) : t.neg.isNumber = true := by
  cases t with
  | nan => cases h
  | number s m => rfl

/-- A sample of a timing line is a number, and an infinity at worst. The third group cannot hold
    the word for something that is no number, since the pattern of seconds asks for a digit. -/
theorem isNumber_of_sample? {line : String} {t : Binary64} (h : sample? .kernel line = some t) :
    t.isNumber = true := by
  rcases Option.bind_eq_some_iff.mp h with ⟨g, hg, hsample⟩
  rw [pattern, find_eq_search] at hg
  rcases search_eq_some hg with ⟨_, piece, rest, _, hderives⟩
  -- The seconds are the last part of the pattern.
  have hsequence : timingPattern = all ([.str "TIME", .blanks1, .some1 isNameChar, .str ":",
      .blanks, appPattern, .blanks, .str "(", .group 2 (.either (.str "ioctl") (.str "invoke")),
      .str ")", .blanks] ++ [secondsPattern 3]) := rfl
  rw [hsequence] at hderives
  rcases all_concat_derives hderives with ⟨_, right, before, after, _, rfl, hbefore, hseconds⟩
  rcases seconds_derives hseconds with ⟨rfl, c, hc, hdigit⟩
  -- The parts in front of them have groups of other numbers.
  have hnumbers : ∀ place ∈ before, place.1 ≠ 3 := by
    intro place hplace heq
    have hmem := hbefore place hplace
    rw [heq] at hmem
    exact absurd hmem (by decide)
  have hthird : Groups.get (before ++ [(3, right ++ rest), (3, rest)]) 3 = String.ofList right := by
    change Groups.get (before ++ ((3, right ++ rest) :: ([] ++ ((3, rest) :: [])))) 3 = _
    exact Groups.get_between hnumbers (List.forall_mem_nil _)
  -- So what is read is a number that was written with a digit.
  rw [sampleOf, hthird] at hsample
  split at hsample
  · rcases Option.map_eq_some_iff.mp hsample with ⟨v, hv, rfl⟩
    have hnumber := isNumber_of_seconds? hc hdigit hv
    split
    · exact hnumber
    · exact isNumber_neg hnumber
  · cases hsample

end Offload

end AccelMonitor
