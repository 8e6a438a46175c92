import AccelMonitor.Text.Blank
import AccelMonitor.Text.Digit

/-!
# Line Patterns

The shapes that the lines of a log are recognised by.

A pattern is a small regular expression whose alternatives are *ordered*: the
first way to match, in that order, is the match. A repetition that prefers more
tries the longest run first, one that prefers fewer the shortest, and a choice
tries its left side before its right. This is what decides which characters a
captured group holds when a line could be read in several ways, so the order is
part of what a pattern means and not of how it is searched.

`Pattern.first` is that meaning, written as a search with a continuation: it
offers every way of matching a pattern at the start of a text to the
continuation, in order, and stops at the first one the continuation accepts.
Repetition is over a class of characters only. No log line needs more, and it
keeps the search a recursion on the pattern with one inner recursion on the
text.

What a match reports is where its groups start and end, each place given by what
is left of the text there. So the continuation needs to know nothing about the
way that led to it, and its answer depends on its place alone.

`Pattern.search` looks for the leftmost place where the pattern matches, and
`Pattern.atStart` for a match at the very start.

## Main definitions

* `Pattern`: Ordered regular expressions with numbered groups.
* `Groups.get`: The text of one group, empty if it took no part.
* `Pattern.first`: The first way to match that a continuation accepts.
* `Pattern.atStart`, `Pattern.search`: The groups of the match at the start of
  a text, and of the leftmost match.
* `Pattern.captures`: The texts of all groups.

## Theorems

* `first_seq`, `first_either`: What the search does on a pattern's parts.
* `runFirst_fewer_cons`: A run that prefers fewer stops where it can.
* `search_cons`: The search moves on exactly when there is no match here.
-/

namespace AccelMonitor

/-- The starts and the ends of the groups of a match, from left to right: the number
    of a group and what is left of the text at this place. A group that took part is
    listed twice, first with its start. -/
abbrev Groups := List (Nat × List Char)

namespace Groups

/-- The text between two places of a text, each given by what is left there. -/
def between (start stop : List Char) : String :=
  String.ofList (start.take (start.length - stop.length))

/-- The text of a group, empty if the group took no part in the match. -/
def get (g : Groups) (i : Nat) : String :=
  match g.filter fun place => place.1 == i with
  | start :: stop :: _ => between start.2 stop.2
  | _ => ""

end Groups

/-- Ordered regular expressions with numbered groups. Which match counts is part of the meaning:
    of all ways to match, the first in the order of the pattern's own preferences, at the
    leftmost place that has any. -/
inductive Pattern where
  /-- The given characters. -/
  | text (s : List Char)
  /-- One character of a class. -/
  | one (cls : Char → Bool)
  /-- A run of characters of a class, as long as possible first if `longest`. -/
  | run (longest : Bool) (cls : Char → Bool)
  /-- The left pattern and then the right one. -/
  | seq (p q : Pattern)
  /-- The left pattern or, after all its ways, the right one. -/
  | either (p q : Pattern)
  /-- The pattern or, after all its ways, nothing. -/
  | optional (p : Pattern)
  /-- The pattern, whose text is the group of this number. -/
  | group (i : Nat) (p : Pattern)
  /-- Nothing, at the end of the text. -/
  | atEnd

namespace Pattern

/-- What is left of a text after the given characters. -/
def dropText? : List Char → List Char → Option (List Char)
  | [], s => some s
  | _ :: _, [] => none
  | c :: cs, d :: s => if c = d then dropText? cs s else none

/-- The first run of `cls` at the start of a text whose remainder `k` accepts. Longer runs are
    tried first or last, and a run that leaves something unacceptable is given up for the next
    one. -/
def runFirst {β : Type} (longest : Bool) (cls : Char → Bool) :
    List Char → (List Char → Option β) → Option β
  | [], k => k []
  | c :: s, k =>
    if cls c then
      if longest then runFirst longest cls s k <|> k (c :: s)
      else k (c :: s) <|> runFirst longest cls s k
    else k (c :: s)

/-- The groups with one more place in front. -/
def place (i : Nat) (s : List Char) (answer : Option Groups) : Option Groups :=
  answer.map fun g => (i, s) :: g

/-- The first way to match the pattern at the start of a text that `k` accepts. The
    continuation gets what is left of the text and answers with the groups from there
    on. -/
def first : Pattern → List Char → (List Char → Option Groups) → Option Groups
  | text t, s, k => (dropText? t s).bind k
  | one cls, s, k =>
    match s with
    | [] => none
    | c :: rest => if cls c then k rest else none
  | run longest cls, s, k => runFirst longest cls s k
  | seq p q, s, k => p.first s fun rest => q.first rest k
  | either p q, s, k => p.first s k <|> q.first s k
  | optional p, s, k => p.first s k <|> k s
  | group i p, s, k => place i s (p.first s fun rest => place i rest (k rest))
  | atEnd, s, k => if s.isEmpty then k s else none

/-- The groups of the match at the start of a text. -/
def atStart (p : Pattern) (s : List Char) : Option Groups :=
  p.first s fun _ => some []

/-- The groups of the leftmost match in a text. -/
def search (p : Pattern) : List Char → Option Groups
  | [] => p.atStart []
  | c :: s => p.atStart (c :: s) <|> search p s

/-- The texts of the first `count` groups of the leftmost match. -/
def captures (p : Pattern) (count : Nat) (s : String) : Option (List String) :=
  (p.search s.toList).map fun g => (List.range count).map fun i => g.get (i + 1)

/-- The search through a sequence hands each way to match its left part on to its
    right part. -/
@[simp] theorem first_seq (p q : Pattern) (s : List Char) (k : List Char → Option Groups) :
    (seq p q).first s k = p.first s fun rest => q.first rest k := rfl

/-- The search through a choice tries the right side when the left one has
    nothing. -/
@[simp] theorem first_either (p q : Pattern) (s : List Char) (k : List Char → Option Groups) :
    (either p q).first s k = (p.first s k <|> q.first s k) := rfl

/-- A run that prefers fewer stops where it can. -/
theorem runFirst_fewer_cons {β : Type} {cls : Char → Bool} {c : Char} (h : cls c = true)
    (s : List Char) (k : List Char → Option β) :
    runFirst false cls (c :: s) k = (k (c :: s) <|> runFirst false cls s k) := by
  rw [runFirst, if_pos h, if_neg Bool.false_ne_true]

/-- The search moves on exactly when there is no match here. -/
theorem search_cons (p : Pattern) (c : Char) (s : List Char) :
    p.search (c :: s) = (p.atStart (c :: s) <|> p.search s) := rfl

/-- The patterns one after the other. -/
def all : List Pattern → Pattern
  | [] => text []
  | [p] => p
  | p :: ps => seq p (all ps)

/-- One of the patterns, the earlier ones preferred. There is at least one. -/
def anyOf (p : Pattern) : List Pattern → Pattern
  | [] => p
  | q :: ps => either p (anyOf q ps)

/-- The characters of a string. -/
def str (s : String) : Pattern :=
  text s.toList

/-- Any number of characters of a class, as many as possible first. -/
def many (cls : Char → Bool) : Pattern :=
  run true cls

/-- One or more characters of a class, as many as possible first. -/
def some1 (cls : Char → Bool) : Pattern :=
  seq (one cls) (run true cls)

/-- Any number of characters of a class, as few as possible first. -/
def few (cls : Char → Bool) : Pattern :=
  run false cls

/-- One or more characters of a class, as few as possible first. -/
def few1 (cls : Char → Bool) : Pattern :=
  seq (one cls) (run false cls)

/-- Any number of blanks. -/
def blanks : Pattern :=
  many Text.isBlank

/-- One or more blanks. -/
def blanks1 : Pattern :=
  some1 Text.isBlank

/-- One or more decimal digits of any script. -/
def digits1 : Pattern :=
  some1 Text.isDecimal

/-- The character may stand in a driver's or a subsystem's name. -/
def isNameChar (c : Char) : Bool :=
  ('A' ≤ c && c ≤ 'Z') || ('a' ≤ c && c ≤ 'z') || ('0' ≤ c && c ≤ '9') || c == '_' || c == '-'

/-- The character does not end the line. -/
def isInLine (c : Char) : Bool :=
  c != '\n'

end Pattern

end AccelMonitor
