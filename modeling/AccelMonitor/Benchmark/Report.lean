import AccelMonitor.Failure
import AccelMonitor.Offload

/-!
# Benchmark Reports

What a benchmark tool prints, as statistics.

There are two forms of report. The report of the benchmark tool and of the
benchmark application is a stream of lines of which two kinds matter: one gives
the preprocessing time, the other the initialisation time and the average
inference time. A later line replaces what an earlier one gave, and what no line
gives is left alone. The measured inference time includes the time spent in
drivers, so each run's share of the offload total is taken off.

The diagnostic report consists of sections, one per run, between two marker
lines. Inside a section an entry is a label and a number of microseconds. The
numbers of a label are summed over all sections and divided by the number of
sections, and the statistics are differences of those averages.

## Main definitions

* `Report.absorbLine`: What a line of the tool's report changes.
* `Report.entries`: The entries inside the sections of a diagnostic report.
* `Report.diagnostic`: The statistics of a diagnostic report.
* `Report.absorb`: The statistics after a framework's report.

## Theorems

* `entries_append_outside`: Lines before the first section do not count.
-/

namespace AccelMonitor

namespace Report

/-- How a line with the preprocessing time begins. -/
def preprocessingMark : String :=
  "PRE-PROCESSING"

/-- How a line with the other times begins. -/
def timingsMark : String :=
  "Inference timings in us:"

/-- A number whose part after the point, if any, is not kept, as a group. -/
def wholePattern (group : Nat) : Pattern :=
  .all [.group group .digits1, .optional (.all [.str ".", .digits1])]

/-- The initialisation time as group 1 and the average inference time as group 2. -/
def timingsPattern : Pattern :=
  .all [.str "Init: ", wholePattern 1, .str ",", .many Pattern.isInLine, .str "Inference (avg): ",
    wholePattern 2]

/-- A 64-bit number of microseconds. -/
def micros? (s : String) : Option Nat :=
  Text.readNat? Text.limit64 s.toList

/-- The first number among the words of a text. -/
def firstNumber? (s : List Char) : Option Nat :=
  (Text.wordsList s).findSome? (Text.readNat? Text.limit64)

/-- The initialisation time and the average inference time of a line. -/
def timings? (line : List Char) : Option (Nat × Nat) :=
  (timingsPattern.find line).bind fun g =>
    match micros? (g.get 1), micros? (g.get 2) with
    | some start, some average => some (start, average)
    | _, _ => none

/-- An average inference time without each run's share of the offload total, which
    is in nanoseconds. -/
def withoutOffload (average offload runs : Nat) : Nat :=
  average - offload / max runs 1 / 1000

/-- What a line of the tool's report changes. A line that begins with the mark of the
    preprocessing time is not looked at for the other times, even if it holds no number. -/
def absorbLine (runs : Nat) (stats : Statistics) (text : String) : Statistics :=
  let line := Text.trimList text.toList
  match Pattern.dropText? preprocessingMark.toList line with
  | some rest =>
    match firstNumber? rest with
    | some n => { stats with preproc := n }
    | none => stats
  | none =>
    if timingsMark.toList.isPrefixOf line then
      match timings? line with
      | some (start, average) =>
        { stats with init := start, inference := withoutOffload average stats.offload runs }
      | none => stats
    else stats

/-- How the line before a section begins. -/
def sectionStart : String :=
  "Dnn Runtime Load/Deserialize/Create Statistics:"

/-- How the line after a section begins. -/
def sectionEnd : String :=
  "Layer Times:"

/-- The character begins a label. -/
def isLetter (c : Char) : Bool :=
  ('A' ≤ c && c ≤ 'Z') || ('a' ≤ c && c ≤ 'z')

/-- The character may stand in a label. -/
def isLabelChar (c : Char) : Bool :=
  Pattern.isNameChar c || c == ' ' || c == '/' || c == '(' || c == ')'

/-- An entry: a label, a colon, a number and its unit. -/
def entryPattern : Pattern :=
  .all [.blanks, .group 1 (.seq (.one isLetter) (.few isLabelChar)), .blanks, .str ":", .blanks,
    .group 2 .digits1, .blanks, .str "us", .blanks, .atEnd]

/-- The label and the number of an entry. -/
def entryOf? (line : List Char) : Option (String × Nat) :=
  (entryPattern.findStart line).bind fun g => (micros? (g.get 2)).map fun n => (g.get 1, n)

/-- The line is a marker before a section. -/
def isStart (line : List Char) : Bool :=
  sectionStart.toList.isPrefixOf line

/-- The line is a marker after a section. -/
def isEnd (line : List Char) : Bool :=
  sectionEnd.toList.isPrefixOf line

/-- The entries inside sections, of lines without blanks around them. Whether the
    first line is inside a section is given. -/
def entries : Bool → List (List Char) → List (String × Nat)
  | _, [] => []
  | inside, line :: rest =>
    -- A marker line is never an entry itself.
    if isStart line then entries true rest
    else if isEnd line then entries false rest
    else if inside then (entryOf? line).toList ++ entries inside rest
    else entries inside rest

/-- The sum of a label's numbers. -/
def sumOf (label : String) : List (String × Nat) → Nat
  | [] => 0
  | e :: es => if e.1 = label then e.2 + sumOf label es else sumOf label es

/-- The statistics of a diagnostic report. Times are summed over all sections and divided by how
    many there are. What comes out in place of a negative difference is zero. -/
def diagnostic (output : List String) : Statistics :=
  let lines := output.map fun s => Text.trimList s.toList
  let es := entries false lines
  let sections := lines.countP isStart
  let average := fun label => sumOf label es / max sections 1
  let forward := average "Forward Propagate Time"
  let remote := average "RPC Execute Time"
  { preproc := 0
    postproc := 0
    inference := forward
    offload := remote - average "Accelerator Time"
    delegation := forward - remote
    init := average "Init" }

/-- The statistics after a framework's report. -/
def absorb (output : List String) (framework : Framework) (runs : Nat) (stats : Statistics) :
    Except Failure Statistics :=
  match framework with
  | .tflite | .tfliteApp => .ok (output.foldl (absorbLine runs) stats)
  | .snpe => .ok (diagnostic output)
  | .mlperf => .error (Failure.frameworkNotImplemented .mlperf)

/-- Lines before the first section do not count. -/
theorem entries_append_outside {before : List (List Char)} (h : ∀ l ∈ before, isStart l = false)
    (rest : List (List Char)) : entries false (before ++ rest) = entries false rest := by
  induction before with
  | nil => rfl
  | cons l ls ih =>
    have hl := h l (List.mem_cons_self ..)
    have hls := ih fun l' hl' => h l' (List.mem_cons_of_mem _ hl')
    rw [List.cons_append, entries, hl, if_neg Bool.false_ne_true, hls]
    by_cases he : isEnd l = true
    · rw [if_pos he]
    · rw [if_neg he, if_neg Bool.false_ne_true]

end Report

end AccelMonitor
