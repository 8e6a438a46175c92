import AccelMonitor.Text.Blank

/-!
# Cutting a Text at a Character

The pieces between the places where a character stands.

`pieces` keeps empty pieces, so a text has one piece more than it has
delimiters, and `joinWith` puts the pieces together again. Both are recursion on
the text, and each is the other's inverse on what the other produces.

Also here are the tests for a fragment at the start of a text, at its end, or
anywhere inside, and the filling of a text to a width.

## Main definitions

* `Text.pieces`, `Text.split`: The pieces between delimiters.
* `Text.joinWith`: The pieces with a delimiter between them.
* `Text.startsWith`, `Text.endsWith`, `Text.holds`: Where a fragment stands.
* `Text.padLeft`: The text filled to a width.

## Theorems

* `pieces_ne_nil`: There is always a piece.
* `joinWith_pieces`: Joining the pieces gives the text back.
* `not_mem_of_mem_pieces`: No piece holds the delimiter.
-/

namespace AccelMonitor

namespace Text

/-- Puts a character in front of the first piece. -/
def consFirst (c : Char) : List (List Char) → List (List Char)
  | [] => [[c]]
  | p :: ps => (c :: p) :: ps

/-- The pieces of a text between the places where `d` stands, empty ones
    included. -/
def pieces (d : Char) : List Char → List (List Char)
  | [] => [[]]
  | c :: s => if c = d then [] :: pieces d s else consFirst c (pieces d s)

/-- The pieces with a delimiter between neighbours. -/
def joinWith (d : List Char) : List (List Char) → List Char
  | [] => []
  | [p] => p
  | p :: q :: ps => p ++ d ++ joinWith d (q :: ps)

/-- The pieces of a text between the places where `d` stands. -/
def split (d : Char) (s : String) : List String :=
  (pieces d s.toList).map String.ofList

/-- There is always a piece. -/
theorem pieces_ne_nil (d : Char) (s : List Char) : pieces d s ≠ [] := by
  cases s with
  | nil => exact List.cons_ne_nil _ _
  | cons c s =>
    rw [pieces]
    split
    · exact List.cons_ne_nil _ _
    · cases pieces d s <;> exact List.cons_ne_nil _ _

/-- Joining the pieces gives the text back. -/
theorem joinWith_pieces (d : Char) (s : List Char) : joinWith [d] (pieces d s) = s := by
  induction s with
  | nil => rfl
  | cons c s ih =>
    rw [pieces]
    rcases hps : pieces d s with _ | ⟨p, ps⟩
    · exact absurd hps (pieces_ne_nil d s)
    rw [hps] at ih
    split
    -- The empty piece in front stands for the delimiter that was cut out.
    case isTrue h => rw [joinWith, ih, h]; rfl
    case isFalse h =>
      cases ps with
      | nil => rw [consFirst, joinWith, ← ih, joinWith]
      | cons q ps => rw [consFirst, joinWith, ← ih, joinWith]; rfl

/-- No piece holds the delimiter. -/
theorem not_mem_of_mem_pieces {d : Char} {s p : List Char} (h : p ∈ pieces d s) : d ∉ p := by
  induction s generalizing p with
  | nil =>
    rw [pieces, List.mem_singleton] at h
    rw [h]
    exact List.not_mem_nil
  | cons c s ih =>
    rw [pieces] at h
    split at h
    case isTrue =>
      rcases List.mem_cons.mp h with rfl | h
      · exact List.not_mem_nil
      · exact ih h
    case isFalse hc =>
      rcases hps : pieces d s with _ | ⟨q, qs⟩
      · exact absurd hps (pieces_ne_nil d s)
      rw [hps] at h ih
      rcases List.mem_cons.mp h with rfl | h
      · intro hd
        rcases List.mem_cons.mp hd with hd | hd
        · exact hc hd.symm
        · exact ih (List.mem_cons_self ..) hd
      · exact ih (List.mem_cons_of_mem _ h)

/-- The fragment stands at the start of the text. -/
def startsWith (fragment s : String) : Bool :=
  fragment.toList.isPrefixOf s.toList

/-- The fragment stands at the end of the text. -/
def endsWith (fragment s : String) : Bool :=
  fragment.toList.isSuffixOf s.toList

/-- The fragment stands somewhere in the text. -/
def holdsList (fragment : List Char) : List Char → Bool
  | [] => fragment.isEmpty
  | c :: s => fragment.isPrefixOf (c :: s) || holdsList fragment s

/-- The fragment stands somewhere in the text. -/
def holds (fragment s : String) : Bool :=
  holdsList fragment.toList s.toList

/-- The texts with a delimiter between neighbours. -/
def join (d : String) (parts : List String) : String :=
  String.ofList (joinWith d.toList (parts.map String.toList))

/-- A text with blanks on its left until it is `width` long. -/
def padLeft (width : Nat) (s : String) : String :=
  String.ofList (List.replicate (width - s.length) ' ') ++ s

end Text

end AccelMonitor
