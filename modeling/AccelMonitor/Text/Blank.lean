/-!
# Blank Characters

What separates one word of a log line from the next.

A line comes from a device as text of any kind, so "blank" has to be a property
of characters and not a short list of the usual ones. It is the property
`White_Space` of the Unicode standard, which is one table of ten ranges, and
everything else here — cutting blanks off the ends of a text, splitting it into
its words — reads that table and nothing more.

The operations work on lists of characters, where they are plain recursion, and
each has a companion on strings that only converts.

## Main definitions

* `Text.isBlank`: The character is white space.
* `Text.trimList`, `Text.trim`: A text without the blanks at its two ends.
* `Text.wordsList`, `Text.words`: The maximal runs of non-blank characters.

## Theorems

* `isBlank_of_isWhitespace`: Every ASCII blank is in the table.
* `dropBlanks_eq_self`: A text that does not start blank loses nothing.
-/

namespace AccelMonitor

namespace Text

/-- The ranges of the Unicode property `White_Space`, ends included. -/
def blankRanges : List (Nat × Nat) :=
  [(0x9, 0xd), (0x20, 0x20), (0x85, 0x85), (0xa0, 0xa0), (0x1680, 0x1680), (0x2000, 0x200a),
    (0x2028, 0x2029), (0x202f, 0x202f), (0x205f, 0x205f), (0x3000, 0x3000)]

/-- The character is white space. -/
def isBlank (c : Char) : Bool :=
  blankRanges.any fun r => r.1 ≤ c.toNat && c.toNat ≤ r.2

/-- Every ASCII blank is in the table. -/
theorem isBlank_of_isWhitespace {c : Char} (h : c.isWhitespace = true) : isBlank c = true := by
  simp only [Char.isWhitespace, Bool.or_eq_true, decide_eq_true_eq] at h
  rcases h with ((h | h) | h) | h <;> subst h <;> decide

/-- A text without the blanks it starts with. -/
def dropBlanks (s : List Char) : List Char :=
  s.dropWhile isBlank

/-- A text without the blanks it ends with. -/
def dropBlanksEnd (s : List Char) : List Char :=
  (dropBlanks s.reverse).reverse

/-- A text without the blanks at its two ends. -/
def trimList (s : List Char) : List Char :=
  dropBlanksEnd (dropBlanks s)

/-- A text that does not start blank loses nothing at its start. -/
theorem dropBlanks_eq_self {s : List Char} (h : ∀ c ∈ s.head?, isBlank c = false) :
    dropBlanks s = s := by
  cases s with
  | nil => rfl
  | cons c t => simp only [dropBlanks, List.dropWhile_cons, h c rfl, Bool.false_eq_true, if_false]

/-- A text without the blanks at its two ends. -/
def trim (s : String) : String :=
  String.ofList (trimList s.toList)

/-- The words of a text, with the word under construction, reversed, in front. -/
def wordsAux : List Char → List Char → List (List Char)
  | [], [] => []
  | [], word => [word.reverse]
  | c :: rest, [] => if isBlank c then wordsAux rest [] else wordsAux rest [c]
  | c :: rest, d :: word =>
    if isBlank c then (d :: word).reverse :: wordsAux rest [] else wordsAux rest (c :: d :: word)

/-- The maximal runs of non-blank characters, in order. -/
def wordsList (s : List Char) : List (List Char) :=
  wordsAux s []

/-- The maximal runs of non-blank characters, in order. -/
def words (s : String) : List String :=
  (wordsList s.toList).map String.ofList

end Text

end AccelMonitor
