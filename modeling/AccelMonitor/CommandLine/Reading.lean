import AccelMonitor.CommandLine.Arguments
import AccelMonitor.Text.Pieces

/-!
# Reading a Command Line

From a list of words to the arguments.

A word that starts with two hyphens is a long name, perhaps with a value behind
an equals sign. A word that starts with one hyphen is a row of letters: flags,
and at the end perhaps a parameter, whose value may follow at once or behind an
equals sign. A parameter without a value in its own word takes the next word, if
that is not such a word itself; a hyphen alone is a value. Nothing else may stand
on the command line, and after a word of just two hyphens nothing at all.

The value of a parameter is looked at only when the next flag or parameter comes
or the command line ends. So a word that means nothing is reported before a bad
value in front of it. Of the faults of one parameter, a missing value comes
first, then that the parameter was given before, and a bad value last.

## Main definitions

* `Progress`: What has been read so far.
* `Progress.word`: One more word.
* `Arguments.ofWords`: The arguments of a command line.

## Theorems

* `waiting_of_accept`: Reading a value leaves alone what waits.
* `settle_settle`: Nothing waits after settling.
-/

namespace AccelMonitor

/-- A parameter whose value has not been looked at. -/
structure Waiting where
  parameter : Parameter
  /-- Its value, if it has come. -/
  value : Option String
deriving DecidableEq

/-- What has been read so far. The last value is kept as it was written and looked at when the
    next flag or parameter begins, so a word behind it that means nothing is reported before it. -/
structure Progress where
  arguments : Arguments
  /-- The flags that were raised. -/
  flags : List Flag
  /-- The parameters whose values were read. -/
  parameters : List Parameter
  /-- The parameter whose value has not been looked at, if any. -/
  waiting : Option Waiting
deriving DecidableEq

namespace Progress

/-- Nothing has been read. -/
def start : Progress :=
  ⟨.standard, [], [], none⟩

/-- Reads the value of a parameter. -/
def accept (s : Progress) (p : Parameter) (value : String) : Except UsageFault Progress :=
  if p ∈ s.parameters then .error (.repeated p.name)
  else (p.accept value s.arguments).map fun a =>
    { s with arguments := a, parameters := p :: s.parameters }

/-- Looks at the value of the parameter that waits. -/
def settle (s : Progress) : Except UsageFault Progress :=
  match s.waiting with
  | none => .ok s
  | some ⟨p, none⟩ => .error (.missingValue p.name)
  | some ⟨p, some value⟩ => { s with waiting := none }.accept p value

/-- Raises a flag. -/
def raise (s : Progress) (f : Flag) : Except UsageFault Progress := do
  let s ← s.settle
  if f ∈ s.flags then throw (.repeated f.name)
  else
    let a ← f.raise s.arguments
    return { s with arguments := a, flags := f :: s.flags }

/-- A parameter begins to wait for its value, or its value came with it. -/
def begin (s : Progress) (p : Parameter) (value : Option String) : Except UsageFault Progress := do
  let s ← s.settle
  match value with
  | some v => s.accept p v
  | none => return { s with waiting := some ⟨p, none⟩ }

/-- A long name, perhaps with a value. -/
def long (s : Progress) (name : String) (value : Option String) : Except UsageFault Progress :=
  match Parameter.ofName? name, Flag.ofName? name, value with
  | some p, _, _ => s.begin p value
  | none, some f, none => s.raise f
  -- These two are faults of the word itself and do not wait for an earlier value.
  | none, some f, some v => .error (.unexpectedValue f.name v)
  | none, none, _ => .error (.unknown ("--" ++ name))

/-- What is behind a parameter's letter: its value, perhaps behind an equals sign. -/
def attached : List Char → Option String
  | [] => none
  | '=' :: value => some (String.ofList value)
  | value => some (String.ofList value)

/-- A row of letters behind a single hyphen. Flags can follow each other. A letter of a
    parameter takes the rest of the row for its value. -/
def letters (s : Progress) : List Char → Except UsageFault Progress
  | [] => .ok s
  | c :: rest =>
    match Parameter.ofLetter? c, Flag.ofLetter? c with
    | some p, _ => s.begin p (attached rest)
    | none, some f =>
      match s.raise f with
      | .error e => .error e
      | .ok s' => s'.letters rest
    | none, none => .error (.unknown (String.ofList ['-', c]))

/-- A word that is no name: the value that a parameter waits for. -/
def plain (s : Progress) (word : String) : Except UsageFault Progress :=
  match s.waiting with
  | some ⟨p, none⟩ => .ok { s with waiting := some ⟨p, some word⟩ }
  | _ => .error (.unknown word)

/-- The name and the value of a long word. -/
def cut (word : List Char) : String × Option String :=
  let name := word.takeWhile (· != '=')
  match word.dropWhile (· != '=') with
  | [] => (String.ofList name, none)
  | _ :: value => (String.ofList name, some (String.ofList value))

/-- One more word. -/
def word (s : Progress) (w : String) : Except UsageFault Progress :=
  match w.toList with
  | '-' :: '-' :: rest => s.long (cut rest).1 (cut rest).2
  | '-' :: c :: rest => s.letters (c :: rest)
  | _ => s.plain w

/-- Some more words. After a word of two hyphens there may be none. -/
def words : List String → Progress → Except UsageFault Progress
  | [], s => s.settle
  | ["--"], s => s.settle
  | w :: rest, s =>
    if w = "--" then .error (.unknown (rest.head?.getD ""))
    else
      match s.word w with
      | .error e => .error e
      | .ok s' => words rest s'

/-- Reading a value leaves alone what waits. -/
theorem waiting_of_accept {s s' : Progress} {p : Parameter} {value : String}
    (h : s.accept p value = .ok s') : s'.waiting = s.waiting := by
  rw [accept] at h
  split at h
  · cases h
  · cases ha : p.accept value s.arguments with
    | error e => rw [ha] at h; cases h
    | ok a => rw [ha] at h; cases h; rfl

/-- Nothing waits after settling. -/
theorem settle_settle {s s' : Progress} (h : s.settle = .ok s') : s'.settle = .ok s' := by
  have hw : s'.waiting = none := by
    rw [settle] at h
    split at h
    · cases h
      assumption
    · cases h
    · exact waiting_of_accept h
  rw [settle, hw]

end Progress

namespace Arguments

/-- The flags that need another one have it. -/
def complete (a : Arguments) : Except UsageFault Arguments :=
  if a.exitOnComplete && !a.benchmark then
    .error (.needs Flag.exitOnComplete.name Flag.benchmark.name)
  else .ok a

/-- The arguments of a command line. -/
def ofWords (words : List String) : Except UsageFault Arguments :=
  do
  let s ← Progress.words words .start
  s.arguments.complete

end Arguments

end AccelMonitor
