import AccelMonitor.Benchmark.Report

/-!
# What the Tool's Report Says

The statistics after a report of the benchmark tool, without the order of its lines.

The report is read line by line, and each line replaces what it gives. So a category holds
what the last line gave that gives it, or what it held before if no line does. Only the
inference time needs something else as well, the offload total, and the report never
changes that total. It can therefore be read before or after any offload time is added:
only the inference time tells.

## Main definitions

* `Report.preprocessingOf?`, `Report.timingsOf?`: What a line gives.
* `Report.latest?`: What the last line gives that gives something.
* `Report.replaced`: Statistics in which what was given replaces what was there.

## Theorems

* `absorbLine_eq`: What a line changes, in one equation.
* `foldl_absorbLine`: What a report changes.
-/

namespace AccelMonitor

namespace Report

variable {α : Type}

/-- The preprocessing time that a line gives. -/
def preprocessingOf? (text : String) : Option Nat :=
  (Pattern.dropText? preprocessingMark.toList (Text.trimList text.toList)).bind firstNumber?

/-- The initialisation time and the average inference time that a line gives. -/
def timingsOf? (text : String) : Option (Nat × Nat) :=
  if timingsMark.toList.isPrefixOf (Text.trimList text.toList) then
    timings? (Text.trimList text.toList)
  else none

/-- What the last line gives that gives something. -/
def latest? (given? : String → Option α) (output : List String) : Option α :=
  output.reverse.findSome? given?

theorem latest?_cons (given? : String → Option α) (line : String) (output : List String) :
    latest? given? (line :: output) = (latest? given? output).or (given? line) := by
  rw [latest?, latest?, List.reverse_cons, List.findSome?_append]
  cases h : given? line with
  | none => rw [List.findSome?_cons, h, List.findSome?_nil]
  | some a => rw [List.findSome?_cons, h]

/-- Statistics in which what was given replaces what was there. -/
def replaced (runs : Nat) (preprocessing : Option Nat) (timings : Option (Nat × Nat))
    (stats : Statistics) : Statistics :=
  { stats with
    preproc := preprocessing.getD stats.preproc
    inference := (timings.map fun t => withoutOffload t.2 stats.offload runs).getD stats.inference
    init := (timings.map Prod.fst).getD stats.init }

/-- What is replaced later wins. -/
theorem replaced_replaced (runs : Nat) (p q : Option Nat) (t u : Option (Nat × Nat))
    (stats : Statistics) :
    replaced runs p t (replaced runs q u stats) = replaced runs (p.or q) (t.or u) stats := by
  cases p with
  | none => cases t with
    | none => rfl
    | some t => rfl
  | some p => cases t with
    | none => rfl
    | some t => rfl

/-- A line with one of the marks does not have the other, so it does not matter which one is
    looked for first. -/
theorem timingsOf?_of_preprocessing {text : String} {rest : List Char}
    (h : Pattern.dropText? preprocessingMark.toList (Text.trimList text.toList) = some rest) :
    timingsOf? text = none := by
  rw [timingsOf?]
  cases hline : Text.trimList text.toList with
  | nil => rfl
  | cons c line =>
    -- The marks begin with different letters.
    rw [hline] at h
    by_cases hc : c = 'P'
    · rw [hc]
      rfl
    · rw [show preprocessingMark.toList = 'P' :: "RE-PROCESSING".toList from rfl,
        Pattern.dropText?, if_neg (Ne.symm hc)] at h
      cases h

/-- What a line of the report changes. The reader looks for the mark of the preprocessing first
    and for the times only without it; since no line has both marks, one description covers the
    two: the numbers that the line gives replace those that were there. -/
theorem absorbLine_eq (runs : Nat) (stats : Statistics) (text : String) :
    absorbLine runs stats text
      = replaced runs (preprocessingOf? text) (timingsOf? text) stats := by
  rw [absorbLine]
  cases hmark : Pattern.dropText? preprocessingMark.toList (Text.trimList text.toList) with
  | some rest =>
    rw [timingsOf?_of_preprocessing hmark, preprocessingOf?, hmark]
    simp only [Option.bind_some]
    cases firstNumber? rest with
    | none => rfl
    | some n => rfl
  | none =>
    rw [preprocessingOf?, hmark, timingsOf?]
    simp only [Option.bind_none]
    split
    · cases timings? (Text.trimList text.toList) with
      | none => rfl
      | some t => rfl
    · rfl

/-- What a report changes: each category holds what the last line gave that gives it. -/
theorem foldl_absorbLine (runs : Nat) (output : List String) (stats : Statistics) :
    output.foldl (absorbLine runs) stats
      = replaced runs (latest? preprocessingOf? output) (latest? timingsOf? output) stats := by
  induction output generalizing stats with
  | nil => rfl
  | cons line output ih =>
    rw [List.foldl_cons, ih, absorbLine_eq, replaced_replaced, latest?_cons, latest?_cons]

end Report

end AccelMonitor
