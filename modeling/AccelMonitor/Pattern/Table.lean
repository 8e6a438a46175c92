import AccelMonitor.Pattern.Basic

/-!
# Searching by Table

The same matches as `Pattern.search`, found without trying anything twice.

The search with continuations comes back to the same place of a text along many
ways: where three runs of blanks can follow each other, the blanks of a line can
be shared among them in a great many ways, and a line that does not match in the
end makes it try them all. But a continuation's answer depends on nothing but its
place, so its answers at all places of a text can be written down once. From the
table of what follows a pattern one pass over the text, from its end to its
start, makes the table of the pattern itself, and the time this takes grows with
the length of the text alone.

## Main definitions

* `Answers`: What a continuation answers at each place of a text.
* `Pattern.table`: From the answers of what follows a pattern, those of the
  pattern followed by it.
* `Pattern.find`, `Pattern.findStart`: The groups of the leftmost match and of
  the match at the start.

## Theorems

* `table_answers`: The table of a pattern holds what its search answers.
* `find_eq_search`, `findStart_eq_atStart`: The matches are the same.
-/

namespace AccelMonitor

/-- The places of a text from its start to its end, each given by what is left there,
    with an answer at each. -/
abbrev Answers := List (List Char × Option Groups)

namespace Answers

/-- The answers of a continuation at all places of a text. -/
def answers (k : List Char → Option Groups) : List Char → Answers
  | [] => [([], k [])]
  | c :: s => (c :: s, k (c :: s)) :: answers k s

/-- The answer at the first place. -/
def lead : Answers → Option Groups
  | [] => none
  | place :: _ => place.2

/-- All places of a text, with a match that is over at each. -/
def start (s : List Char) : Answers :=
  s.foldr (fun c a => (c :: (a.head?.map Prod.fst).getD [], some []) :: a) [([], some [])]

/-- New answers at all places, made from the last place to the first. What `f` gets is
    what is left at a place, the old answers from there on and the new answer one
    place further on. -/
def sweep (f : List Char → Answers → Option Groups → Option Groups) (a : Answers) : Answers :=
  (a.foldr (fun place (old, new) =>
    (place :: old, (place.1, f place.1 (place :: old) (lead new)) :: new)) ([], [])).2

/-- The first answers and, where there is none, the second ones. -/
def orElse (a b : Answers) : Answers :=
  List.zipWith (fun x y => (x.1, x.2 <|> y.2)) a b

/-- Other answers at the same places, each made from the old one. -/
def change (f : List Char → Option Groups → Option Groups) (a : Answers) : Answers :=
  a.map fun place => (place.1, f place.1 place.2)

/-- The first of the answers of a continuation is the one at the start of the text. -/
theorem lead_answers (k : List Char → Option Groups) (s : List Char) :
    lead (answers k s) = k s := by
  cases s <;> rfl

/-- What is left at the first place is the whole text. -/
theorem head_answers (k : List Char → Option Groups) (s : List Char) :
    (answers k s).head?.map Prod.fst = some s := by
  cases s <;> rfl

/-- A match that is over accepts every place. -/
theorem start_eq (s : List Char) : start s = answers (fun _ => some []) s := by
  induction s with
  | nil => rfl
  | cons c s ih =>
    rw [start, List.foldr_cons, ← start, ih, head_answers]
    rfl

/-- Both sides of a sweep at once: the old answers come out unchanged, and the new
    ones are those of `g` if each is made from the one after it. -/
theorem sweep_answers {f : List Char → Answers → Option Groups → Option Groups}
    {k g : List Char → Option Groups} (hnil : f [] (answers k []) none = g [])
    (hcons : ∀ c s, f (c :: s) (answers k (c :: s)) (g s) = g (c :: s)) (s : List Char) :
    sweep f (answers k s) = answers g s := by
  suffices h : (answers k s).foldr (fun place (acc : Answers × Answers) =>
      (place :: acc.1, (place.1, f place.1 (place :: acc.1) (lead acc.2)) :: acc.2)) ([], [])
      = (answers k s, answers g s) by
    exact congrArg Prod.snd h
  induction s with
  | nil =>
    simp only [answers, List.foldr_cons, List.foldr_nil, lead]
    rw [← answers, hnil]
  | cons c s ih =>
    rw [answers, List.foldr_cons, ih]
    simp only [lead_answers]
    rw [← answers, hcons, ← answers]

/-- Two tables of one text are joined place by place. -/
theorem orElse_answers (k l : List Char → Option Groups) (s : List Char) :
    orElse (answers k s) (answers l s) = answers (fun u => k u <|> l u) s := by
  induction s with
  | nil => rfl
  | cons c s ih => rw [answers, answers, orElse, List.zipWith_cons_cons, ← orElse, ih]; rfl

/-- A table is changed place by place. -/
theorem change_answers (f : List Char → Option Groups → Option Groups)
    (k : List Char → Option Groups) (s : List Char) :
    change f (answers k s) = answers (fun u => f u (k u)) s := by
  induction s with
  | nil => rfl
  | cons c s ih => rw [answers, change, List.map_cons, ← change, ih]; rfl

/-- The answer after a given text is that many places further on. -/
theorem lead_drop_answers {t s rest : List Char} (k : List Char → Option Groups)
    (h : Pattern.dropText? t s = some rest) :
    lead ((answers k s).drop t.length) = k rest := by
  induction t generalizing s with
  | nil =>
    obtain rfl := Option.some.inj h
    exact lead_answers k s
  | cons c t ih =>
    cases s with
    | nil => cases h
    | cons d s =>
      rw [Pattern.dropText?] at h
      split at h
      · exact ih h
      · cases h

/-- The first answer that there is. -/
def findFirst (a : Answers) : Option Groups :=
  a.findSome? Prod.snd

end Answers

namespace Pattern

open Answers

/-- The new answer at a place where given characters are wanted. -/
def textAnswer (t : List Char) (s : List Char) (old : Answers) (_ : Option Groups) :
    Option Groups :=
  if (dropText? t s).isSome then lead (old.drop t.length) else none

/-- The new answer at a place where one character of a class is wanted. -/
def oneAnswer (cls : Char → Bool) (s : List Char) (old : Answers) (_ : Option Groups) :
    Option Groups :=
  match s with
  | [] => none
  | c :: _ => if cls c then lead (old.drop 1) else none

/-- The new answer at a place where a run of a class may stand. Either the run is over
    here, or it goes on with one more character. -/
def runAnswer (longest : Bool) (cls : Char → Bool) (s : List Char) (old : Answers)
    (further : Option Groups) : Option Groups :=
  match s with
  | [] => lead old
  | c :: _ =>
    if cls c then
      if longest then further <|> lead old else lead old <|> further
    else lead old

/-- From the answers of what follows a pattern, those of the pattern followed by it. -/
def table : Pattern → Answers → Answers
  | text t, a => sweep (textAnswer t) a
  | one cls, a => sweep (oneAnswer cls) a
  | run longest cls, a => sweep (runAnswer longest cls) a
  | seq p q, a => p.table (q.table a)
  | either p q, a => orElse (p.table a) (q.table a)
  | optional p, a => orElse (p.table a) a
  | group i p, a => change (place i) (p.table (change (place i) a))
  | atEnd, a => change (fun s answer => if s.isEmpty then answer else none) a

/-- The groups of the leftmost match in a text. -/
def find (p : Pattern) (s : List Char) : Option Groups :=
  findFirst (p.table (start s))

/-- The groups of the match at the start of a text. -/
def findStart (p : Pattern) (s : List Char) : Option Groups :=
  lead (p.table (start s))

/-- The table of a pattern holds what its search answers. -/
theorem table_answers (p : Pattern) (k : List Char → Option Groups) (s : List Char) :
    p.table (answers k s) = answers (fun u => p.first u k) s := by
  induction p generalizing k s with
  | text t =>
    have h (u : List Char) : textAnswer t u (answers k u) none = (text t).first u k := by
      rw [textAnswer, first]
      cases hd : dropText? t u with
      | none => rfl
      | some rest => exact lead_drop_answers k hd
    exact sweep_answers (h []) (fun c u => h (c :: u)) s
  | one cls =>
    refine sweep_answers rfl (fun c u => ?_) s
    rw [first, oneAnswer, answers, List.drop_succ_cons, List.drop_zero, lead_answers]
  | run longest cls =>
    refine sweep_answers rfl (fun c u => ?_) s
    rw [runAnswer, lead_answers, first, first, runFirst]
  | seq p q ihp ihq => rw [table, ihq, ihp]; rfl
  | either p q ihp ihq => rw [table, ihp, ihq, orElse_answers]; rfl
  | optional p ih => rw [table, ih, orElse_answers]; rfl
  | group i p ih => rw [table, change_answers, ih, change_answers]; rfl
  | atEnd => exact change_answers _ k s

/-- The first answer of a continuation that has one comes from the leftmost place. -/
theorem findFirst_answers (p : Pattern) (s : List Char) :
    findFirst (answers p.atStart s) = p.search s := by
  induction s with
  | nil =>
    rw [answers, findFirst, List.findSome?_cons, search]
    cases p.atStart [] <;> rfl
  | cons c s ih =>
    rw [answers, findFirst, List.findSome?_cons, ← findFirst, ih, search]
    cases p.atStart (c :: s) <;> rfl

/-- The table leads to the leftmost match. -/
theorem find_eq_search (p : Pattern) (s : List Char) : p.find s = p.search s := by
  rw [find, start_eq, table_answers]
  exact findFirst_answers p s

/-- The table leads to the match at the start. -/
theorem findStart_eq_atStart (p : Pattern) (s : List Char) : p.findStart s = p.atStart s := by
  rw [findStart, start_eq, table_answers, lead_answers, atStart]

end Pattern

end AccelMonitor
