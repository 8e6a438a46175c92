import AccelMonitor.Text.Pieces
import Mathlib.Data.List.Basic

/-!
# Pieces and Joined Texts

Cutting a text undoes joining, for pieces that hold no delimiter.

The other way round needs no condition: pieces can always be joined to the text that they
were cut from. A piece that is joined with others may hold the delimiter, and then it is cut
too. Without that, the first delimiter of a joined text is the one behind its first piece.

The ends of a text are those of its first and its last piece, unless it is a delimiter that
stands there.

A fragment can stand across the places where a text was put together, unless one of its
characters would have to stand there and cannot.

## Theorems

* `pieces_append_cons`, `pieces_of_not_mem`: Where a text is cut first.
* `pieces_joinWith`: Joined pieces are found again.
* `mem_joinWith`: A joined text holds what its pieces hold.
* `joinWith_concat`: A joined text up to its last piece.
* `head?_joinWith`, `getLast?_joinWith`: How a joined text begins and ends.
* `exists_first_piece`, `exists_last_piece`: What its ends say of the pieces of a text.
* `holdsList_iff`: A fragment stands somewhere in a text.
* `infix_append_cons`, `infix_append`: Where a fragment stands in a text of two parts.
-/

namespace AccelMonitor

namespace Text

/-- A text is cut at its first delimiter. -/
theorem pieces_append_cons {d : Char} {p : List Char} (hp : d ∉ p) (s : List Char) :
    pieces d (p ++ d :: s) = p :: pieces d s := by
  induction p with
  | nil => rw [List.nil_append, pieces, if_pos rfl]
  | cons c p ih =>
    rw [List.mem_cons, not_or] at hp
    rw [List.cons_append, pieces, if_neg (Ne.symm hp.1), ih hp.2, consFirst]

/-- A text without a delimiter is one piece. -/
theorem pieces_of_not_mem {d : Char} {p : List Char} (hp : d ∉ p) : pieces d p = [p] := by
  induction p with
  | nil => rfl
  | cons c p ih =>
    rw [List.mem_cons, not_or] at hp
    rw [pieces, if_neg (Ne.symm hp.1), ih hp.2, consFirst]

/-- Joined pieces are found again. -/
theorem pieces_joinWith {d : Char} {parts : List (List Char)} (hne : parts ≠ [])
    (hparts : ∀ p ∈ parts, d ∉ p) : pieces d (joinWith [d] parts) = parts := by
  induction parts with
  | nil => exact absurd rfl hne
  | cons p parts ih =>
    rw [List.forall_mem_cons] at hparts
    cases parts with
    | nil => exact pieces_of_not_mem hparts.1
    | cons q parts =>
      rw [joinWith, List.append_assoc, List.singleton_append, pieces_append_cons hparts.1,
        ih (List.cons_ne_nil _ _) hparts.2]

/-- What a piece holds is held by the pieces joined. -/
theorem mem_joinWith {d p : List Char} {parts : List (List Char)} {c : Char} (hc : c ∈ p)
    (hp : p ∈ parts) : c ∈ joinWith d parts := by
  induction parts with
  | nil => exact absurd hp List.not_mem_nil
  | cons q parts ih =>
    cases parts with
    | nil =>
      rw [List.mem_singleton] at hp
      rw [joinWith, ← hp]
      exact hc
    | cons r parts =>
      rw [joinWith]
      rcases List.mem_cons.mp hp with rfl | hp
      · exact List.mem_append_left _ (List.mem_append_left d hc)
      · exact List.mem_append_right _ (ih hp)

theorem joinWith_concat (d : List Char) {parts : List (List Char)} (hne : parts ≠ [])
    (p : List Char) : joinWith d (parts ++ [p]) = joinWith d parts ++ d ++ p := by
  induction parts with
  | nil => exact absurd rfl hne
  | cons q parts ih =>
    cases parts with
    | nil => rfl
    | cons q' parts =>
      rw [List.cons_append, List.cons_append, joinWith, ← List.cons_append,
        ih (List.cons_ne_nil _ _), joinWith]
      simp only [List.append_assoc]

theorem head?_joinWith (d : List Char) {p : List Char} (hp : p ≠ [])
    (parts : List (List Char)) : (joinWith d (p :: parts)).head? = p.head? := by
  cases parts with
  | nil => rfl
  | cons q parts => rw [joinWith, List.append_assoc, List.head?_append_of_ne_nil _ hp]

theorem getLast?_joinWith (d : List Char) {p : List Char} (hp : p ≠ [])
    (parts : List (List Char)) : (joinWith d (parts ++ [p])).getLast? = p.getLast? := by
  by_cases hparts : parts = []
  · rw [hparts]
    rfl
  · rw [joinWith_concat d hparts, List.getLast?_append_of_ne_nil _ hp]

/-- The first piece begins as the text does. -/
theorem exists_first_piece {d : Char} {s : List Char} (hs : ∃ c ∈ s.head?, c ≠ d) :
    ∃ p rest, pieces d s = p :: rest ∧ p.head? = s.head? := by
  rcases hs with ⟨c, hc, hcd⟩
  rcases List.head?_eq_some_iff.mp hc with ⟨t, rfl⟩
  rw [pieces, if_neg hcd]
  cases pieces d t with
  | nil => exact ⟨[c], [], rfl, rfl⟩
  | cons p rest => exact ⟨c :: p, rest, rfl, rfl⟩

/-- The last piece ends as the text does, unless the text ends with the delimiter, where the last
    piece is empty. -/
theorem exists_last_piece {d : Char} {s : List Char} (hs : ∃ c ∈ s.getLast?, c ≠ d) :
    ∃ front p, pieces d s = front ++ [p] ∧ p.getLast? = s.getLast? := by
  rcases List.eq_nil_or_concat (pieces d s) with hnil | ⟨front, p, hpieces⟩
  · exact absurd hnil (pieces_ne_nil d s)
  · rw [List.concat_eq_append] at hpieces
    refine ⟨front, p, hpieces, ?_⟩
    rcases hs with ⟨c, hc, hcd⟩
    have hjoin := joinWith_pieces d s
    rw [hpieces] at hjoin
    by_cases hp : p = []
    · -- A text whose last piece is empty is empty or ends with the delimiter.
      rw [hp] at hjoin
      by_cases hfront : front = []
      · rw [hfront] at hjoin
        rw [← hjoin] at hc
        cases hc
      · rw [joinWith_concat [d] hfront, List.append_nil] at hjoin
        rw [← hjoin, List.getLast?_concat] at hc
        exact absurd (Option.some.inj hc).symm hcd
    · rw [← getLast?_joinWith [d] hp front, hjoin]

/-- A fragment is held by a text in which it stands somewhere. -/
theorem holdsList_iff {fragment s : List Char} : holdsList fragment s = true ↔ fragment <:+: s := by
  induction s with
  | nil => rw [holdsList, List.isEmpty_iff, List.infix_nil]
  | cons c s ih =>
    rw [holdsList, Bool.or_eq_true, List.isPrefixOf_iff_prefix, ih, List.infix_cons_iff]

/-- A fragment does not stand across a character that it does not hold, so it lies on one side
    of it. Texts that are joined from parts with such a character can be searched part by part. -/
theorem infix_append_cons {fragment x y : List Char} {c : Char} (hc : c ∉ fragment)
    (h : fragment <:+: x ++ c :: y) : fragment <:+: x ∨ fragment <:+: y := by
  rcases h with ⟨before, after, h⟩
  -- The fragment ends in front of the character, or it reaches at least up to it.
  rcases List.append_eq_append_iff.mp h with ⟨rest, rfl, _⟩ | ⟨rest, hfront, hback⟩
  · exact Or.inl ⟨before, rest, rfl⟩
  cases rest with
  | nil =>
    rw [List.append_nil] at hfront
    exact Or.inl ⟨before, [], by rw [hfront, List.append_nil]⟩
  | cons d rest =>
    rw [List.cons_append, List.cons.injEq] at hback
    rcases hback with ⟨rfl, rfl⟩
    -- The character stands in the fragment, or in front of it.
    rcases List.append_eq_append_iff.mp hfront with ⟨front, rfl, hfragment⟩ | ⟨front, rfl, hrest⟩
    · rw [hfragment] at hc
      exact absurd (List.mem_append_right front (List.mem_cons_self ..)) hc
    · cases front with
      | nil =>
        rw [List.nil_append] at hrest
        rw [← hrest] at hc
        exact absurd (List.mem_cons_self ..) hc
      | cons e front =>
        rw [List.cons_append, List.cons.injEq] at hrest
        exact Or.inr ⟨front, after, by rw [hrest.2]⟩

/-- A fragment stands in the first part of a text if the other part has other characters. -/
theorem infix_append {fragment x y : List Char} (hy : ∀ c ∈ y, c ∉ fragment)
    (h : fragment <:+: x ++ y) : fragment <:+: x := by
  induction y generalizing x with
  | nil =>
    rw [List.append_nil] at h
    exact h
  | cons c y ih =>
    rw [List.forall_mem_cons] at hy
    rcases infix_append_cons hy.1 h with h | h
    · exact h
    · have hnil : fragment = [] := List.infix_nil.mp (ih (x := []) hy.2 h)
      rw [hnil]
      exact List.nil_infix

end Text

end AccelMonitor
