import AccelMonitor.Text.Pieces
import Mathlib.Data.List.Basic

/-!
# Words

The words of a text, part by part.

A blank ends a word, so the words of a text are those in front of a blank and those behind
it. A text without blanks is one word, or none if it is empty.

Some words are flags that give the word behind them a meaning. What stands behind a flag can
be found in a list of words part by part as well.

## Main definitions

* `Text.valuesOf`: The words that stand behind a flag.

## Theorems

* `wordsList_append`: The words before and behind a blank.
* `wordsList_solid`, `wordsList_word`: A text without blanks is one word.
* `mem_of_mem_words`: A word is made of characters of the text.
* `words_ne_nil`: A text that is not blank has a word.
* `words_join`: The words of parts with spaces between them.
* `valuesOf_skip`, `valuesOf_flag`: Where no flag stands, and where one does.
-/

namespace AccelMonitor

namespace Text

/-- The words before and behind a blank, with a word under construction. The blank ends that word,
    so the words behind it are those of the rest alone. -/
theorem wordsAux_append {c : Char} (hc : isBlank c = true) (s rest read : List Char) :
    wordsAux (s ++ c :: rest) read = wordsAux s read ++ wordsList rest := by
  induction s generalizing read with
  | nil =>
    cases read with
    | nil => simp only [List.nil_append, wordsAux, hc, if_true, wordsList]
    | cons d read => simp only [List.nil_append, wordsAux, hc, if_true, wordsList, List.cons_append]
  | cons e s ih =>
    cases read with
    | nil =>
      rw [List.cons_append, wordsAux, wordsAux]
      split
      · exact ih []
      · exact ih [e]
    | cons d read =>
      rw [List.cons_append, wordsAux, wordsAux]
      split
      · rw [ih [], List.cons_append]
      · exact ih (e :: d :: read)

/-- The words of a text are those before and behind a blank. -/
theorem wordsList_append {c : Char} (hc : isBlank c = true) (s rest : List Char) :
    wordsList (s ++ c :: rest) = wordsList s ++ wordsList rest :=
  wordsAux_append hc s rest []

/-- A word under construction takes along all of a text without blanks. -/
theorem wordsAux_solid {word read : List Char} (hword : ∀ c ∈ word, isBlank c = false)
    (hread : read ≠ []) : wordsAux word read = [read.reverse ++ word] := by
  induction word generalizing read with
  | nil =>
    cases read with
    | nil => exact absurd rfl hread
    | cons d read => simp only [wordsAux, List.append_nil]
  | cons c word ih =>
    rw [List.forall_mem_cons] at hword
    cases read with
    | nil => exact absurd rfl hread
    | cons d read =>
      rw [wordsAux, if_neg (Bool.eq_false_iff.mp hword.1), ih hword.2 (List.cons_ne_nil c _),
        List.reverse_cons, List.append_assoc, List.singleton_append]

/-- A text without blanks is one word. -/
theorem wordsList_solid {word : List Char} (hne : word ≠ [])
    (hword : ∀ c ∈ word, isBlank c = false) : wordsList word = [word] := by
  cases word with
  | nil => exact absurd rfl hne
  | cons c word =>
    rw [List.forall_mem_cons] at hword
    rw [wordsList, wordsAux, if_neg (Bool.eq_false_iff.mp hword.1),
      wordsAux_solid hword.2 (List.cons_ne_nil c []), List.reverse_singleton,
      List.singleton_append]

/-- The first word of a text that begins with one. -/
theorem wordsList_word {word : List Char} (hne : word ≠ [])
    (hword : ∀ c ∈ word, isBlank c = false) {rest : List Char}
    (hrest : ∀ c ∈ rest.head?, isBlank c = true) :
    wordsList (word ++ rest) = word :: wordsList rest := by
  cases rest with
  | nil => rw [List.append_nil, wordsList_solid hne hword]; rfl
  | cons c rest =>
    have hc := hrest c rfl
    have hskip : wordsList (c :: rest) = wordsList rest := wordsList_append hc [] rest
    rw [wordsList_append hc, wordsList_solid hne hword, hskip, List.singleton_append]

/-- The characters of a word are characters of the text, or of the part of a word that was read
    already. The induction is on the text, for any such part, since every character either goes
    to it or ends it. -/
theorem mem_of_mem_wordsAux {s read word : List Char} (hword : word ∈ wordsAux s read) {c : Char}
    (hc : c ∈ word) : c ∈ s ∨ c ∈ read := by
  induction s generalizing read with
  | nil =>
    cases read with
    | nil => cases hword
    | cons d read =>
      simp only [wordsAux, List.mem_singleton] at hword
      rw [hword, List.mem_reverse] at hc
      exact Or.inr hc
  | cons e s ih =>
    -- Outside a word a blank is skipped, and anything else begins a word.
    cases read with
    | nil =>
      rw [wordsAux] at hword
      split at hword
      · exact (ih hword).imp (List.mem_cons_of_mem e) id
      · rcases ih hword with h | h
        · exact Or.inl (List.mem_cons_of_mem e h)
        · exact Or.inl (List.mem_cons.mpr (Or.inl (List.mem_singleton.mp h)))
    -- Inside a word a blank ends it, and anything else becomes part of it.
    | cons d read =>
      rw [wordsAux] at hword
      split at hword
      · rcases List.mem_cons.mp hword with rfl | hword
        · exact Or.inr (List.mem_reverse.mp hc)
        · rcases ih hword with h | h
          · exact Or.inl (List.mem_cons_of_mem e h)
          · cases h
      · rcases ih hword with h | h
        · exact Or.inl (List.mem_cons_of_mem e h)
        · rcases List.mem_cons.mp h with rfl | h
          · exact Or.inl (List.mem_cons_self ..)
          · exact Or.inr h

/-- A word is made of characters of the text. -/
theorem mem_of_mem_words {s word : String} (hword : word ∈ words s) {c : Char}
    (hc : c ∈ word.toList) : c ∈ s.toList := by
  rcases List.mem_map.mp hword with ⟨w, hw, rfl⟩
  rw [String.toList_ofList] at hc
  rcases mem_of_mem_wordsAux hw hc with h | h
  · exact h
  · cases h

/-- Where there are no words, nothing was under construction and all characters are blanks. -/
theorem wordsAux_eq_nil {s read : List Char} (h : wordsAux s read = []) :
    read = [] ∧ ∀ c ∈ s, isBlank c = true := by
  induction s generalizing read with
  | nil =>
    cases read with
    | nil => exact ⟨rfl, List.forall_mem_nil _⟩
    | cons d read => cases h
  | cons c s ih =>
    cases read with
    | nil =>
      rw [wordsAux] at h
      split at h
      · rename_i hc
        exact ⟨rfl, List.forall_mem_cons.mpr ⟨hc, (ih h).2⟩⟩
      · cases (ih h).1
    | cons d read =>
      rw [wordsAux] at h
      split at h
      · cases h
      · cases (ih h).1

/-- A text that is not blank has a word. -/
theorem words_ne_nil {s : String} (h : ¬ ∀ c ∈ s.toList, isBlank c = true) : words s ≠ [] := by
  intro hnil
  exact h (wordsAux_eq_nil (List.map_eq_nil_iff.mp hnil)).2

/-- The words of parts with spaces between them are those of the parts, for no word goes on across
    a space. -/
theorem words_join (parts : List String) : words (join " " parts) = parts.flatMap words := by
  -- On lists of characters, by induction on the parts.
  have hlists : ∀ parts : List (List Char),
      wordsList (joinWith [' '] parts) = parts.flatMap wordsList := by
    intro parts
    induction parts with
    | nil => rfl
    | cons p parts ih =>
      cases parts with
      | nil => rw [joinWith, List.flatMap_singleton]
      | cons q parts =>
        rw [joinWith, List.append_assoc, List.singleton_append, wordsList_append (by decide), ih]
        rfl
  have hspace : " ".toList = [' '] := rfl
  rw [words, join, String.toList_ofList, hspace, hlists, List.flatMap_map, List.map_flatMap]
  rfl

/-- The words that stand behind a flag. -/
def valuesOf (flag : String) : List String → List String
  | [] => []
  | word :: rest => (if word = flag then rest.head?.toList else []) ++ valuesOf flag rest

/-- Where no flag stands, none has a value. -/
theorem valuesOf_skip {flag : String} {front : List String} (h : flag ∉ front)
    (rest : List String) : valuesOf flag (front ++ rest) = valuesOf flag rest := by
  induction front with
  | nil => rfl
  | cons word front ih =>
    rw [List.mem_cons, not_or] at h
    rw [List.cons_append, valuesOf, if_neg (Ne.symm h.1), List.nil_append, ih h.2]

/-- The value of a flag is the word behind it. -/
theorem valuesOf_flag (flag value : String) (rest : List String) :
    valuesOf flag (flag :: value :: rest) = value :: valuesOf flag (value :: rest) := by
  rw [valuesOf, if_pos rfl]
  rfl

end Text

end AccelMonitor
