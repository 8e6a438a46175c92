import AccelMonitor.Proofs.Benchmark.Timings
import AccelMonitor.Proofs.Benchmark.ToolReport
import AccelMonitor.Proofs.Text.Words

/-!
# The Last Line That Gives Something

What is left of a report of the benchmark tool.

A line with the first mark gives the preprocessing time if one of its words is a number. A
line with the second mark gives the initialisation time and the average inference time, both
or neither. No other line gives anything. Of the lines that give a time the last one counts,
and a time that no line gives stays what it was.

So lines that give nothing can stand anywhere. A report can also be read twice: the offload
total is taken off the average of the line, and never off an inference time that it was
already taken off.

## Main definitions

* `Report.FirstNumber`: The first number among some words.
* `Report.GivesPreprocessing`, `Report.GivesTimings`: What a line says.
* `Report.LastGiven`, `Report.NeverGiven`: What a report says.

## Theorems

* `readNat?_iff`: What is read of a word.
* `preprocessingOf?_eq_some`, `timingsOf?_eq_some`: What is read of a line is what it says.
* `firstNumber_mark`: When the mark can be one of the words.
* `latest?_cases`, `latest?_skip`: What is read of a report is what it says.
* `last_given_wins`: All of it, for every report.
-/

namespace AccelMonitor

namespace Report

variable {α : Type}

/-- The word is a number of 64 bits. A plus sign may stand in front of the digits. -/
def IsNumber (word : List Char) (n : Nat) : Prop :=
  ∃ digits, (word = digits ∨ word = '+' :: digits) ∧ digits ≠ [] ∧ WritesNat digits n

/-- The number is the first one among the words. -/
def FirstNumber (words : List (List Char)) (n : Nat) : Prop :=
  ∃ earlier word later, words = earlier ++ word :: later ∧ IsNumber word n ∧
    ∀ other ∈ earlier, ∀ m, ¬ IsNumber other m

/-- The line gives the preprocessing time: it is the first number behind the mark. -/
def GivesPreprocessing (text : String) (n : Nat) : Prop :=
  ∃ rest, Text.trimList text.toList = preprocessingMark.toList ++ rest ∧
    FirstNumber (Text.wordsList rest) n

/-- The line has the mark and gives the initialisation time and the average inference time. -/
def GivesTimings (text : String) (times : Nat × Nat) : Prop :=
  timingsMark.toList <+: Text.trimList text.toList ∧
    IsTimings (Text.trimList text.toList) times.1 times.2

/-- A line of the report gives this, and no later one gives anything. -/
def LastGiven (Gives : String → α → Prop) (output : List String) (a : α) : Prop :=
  ∃ before line after, output = before ++ line :: after ∧ Gives line a ∧
    ∀ later ∈ after, ∀ b, ¬ Gives later b

/-- No line of the report gives anything. -/
def NeverGiven (Gives : String → α → Prop) (output : List String) : Prop :=
  ∀ line ∈ output, ∀ a, ¬ Gives line a

/-- What is read of a word is the number that it is. The reader drops a plus in front; the
    specification says that the word is the digits or a plus and the digits. -/
theorem readNat?_iff {word : List Char} {n : Nat} :
    Text.readNat? Text.limit64 word = some n ↔ IsNumber word n := by
  have hread : Text.readNat? Text.limit64 word = some n ↔
      Text.afterPlus word ≠ [] ∧ WritesNat (Text.afterPlus word) n := by
    simp only [Text.readNat?, WritesNat, Option.ite_none_right_eq_some, Option.some.injEq,
      List.all_eq_true]
    constructor
    · rintro ⟨⟨hne, hdigits, hbound⟩, rfl⟩
      exact ⟨hne, hdigits, rfl, hbound⟩
    · rintro ⟨hne, hdigits, rfl, hbound⟩
      exact ⟨⟨hne, hdigits, hbound⟩, rfl⟩
  rw [hread]
  constructor
  · rintro ⟨hne, hwrites⟩
    refine ⟨Text.afterPlus word, ?_, hne, hwrites⟩
    rw [Text.afterPlus.eq_def]
    split
    · exact Or.inr rfl
    · exact Or.inl rfl
  · rintro ⟨digits, rfl | rfl, hne, hwrites⟩
    · rw [afterPlus_digits fun c hc => Text.isDecimal_of_isDigit (hwrites.1 c hc)]
      exact ⟨hne, hwrites⟩
    · exact ⟨hne, hwrites⟩

/-- The first number that is read of some words is the first one. -/
theorem findSome?_readNat? {words : List (List Char)} {n : Nat} :
    words.findSome? (Text.readNat? Text.limit64) = some n ↔ FirstNumber words n := by
  simp only [List.findSome?_eq_some_iff, FirstNumber, readNat?_iff,
    Option.eq_none_iff_forall_ne_some, ne_eq]

/-- A word that is no number is passed. -/
theorem firstNumber_cons {word : List Char} (hword : ∀ m, ¬ IsNumber word m)
    {words : List (List Char)} {n : Nat} : FirstNumber (word :: words) n ↔ FirstNumber words n := by
  have hnone : Text.readNat? Text.limit64 word = none :=
    Option.eq_none_iff_forall_ne_some.mpr fun m hm => hword m (readNat?_iff.mp hm)
  rw [← findSome?_readNat?, ← findSome?_readNat?, List.findSome?_cons, hnone]

/-- The preprocessing time that is read is the one that the line gives. -/
theorem preprocessingOf?_eq_some {text : String} {n : Nat} :
    preprocessingOf? text = some n ↔ GivesPreprocessing text n := by
  simp only [preprocessingOf?, Option.bind_eq_some_iff, Pattern.dropText?_eq_some,
    firstNumber?, findSome?_readNat?, GivesPreprocessing]

/-- The times that are read are those that the line gives. -/
theorem timingsOf?_eq_some {text : String} {times : Nat × Nat} :
    timingsOf? text = some times ↔ GivesTimings text times := by
  rw [timingsOf?, GivesTimings, ← timings?_eq_some, ← List.isPrefixOf_iff_prefix]
  split
  · rename_i hmark
    simp only [hmark, Prod.mk.eta, true_and]
  · rename_i hmark
    simp only [reduceCtorEq, hmark, Bool.false_eq_true, Prod.mk.eta, false_and]

/-- No word that begins with the mark is a number. -/
theorem not_isNumber_mark (glued : List Char) (n : Nat) :
    ¬ IsNumber (preprocessingMark.toList ++ glued) n := by
  have hmark : preprocessingMark.toList ++ glued = 'P' :: ("RE-PROCESSING".toList ++ glued) := rfl
  rw [hmark]
  rintro ⟨digits, rfl | hplus, _, hdigits, _⟩
  · exact absurd (hdigits 'P' (List.mem_cons_self ..)) (by decide)
  · exact absurd (List.cons.inj hplus).1 (by decide)

/-- If no number is glued to the mark, then the first number can be looked for among all words
    of the line. -/
theorem firstNumber_mark {glued rest : List Char} (hglued : ∀ c ∈ glued, Text.isBlank c = false)
    (hnumber : ∀ m, ¬ IsNumber glued m) (hrest : ∀ c ∈ rest.head?, Text.isBlank c = true)
    {n : Nat} : FirstNumber (Text.wordsList (preprocessingMark.toList ++ (glued ++ rest))) n ↔
      FirstNumber (Text.wordsList (glued ++ rest)) n := by
  have hall : (preprocessingMark.toList.all fun c => !Text.isBlank c) = true := by decide
  have hmark : ∀ c ∈ preprocessingMark.toList ++ glued, Text.isBlank c = false := by
    rw [List.forall_mem_append]
    exact ⟨by simpa only [List.all_eq_true, Bool.not_eq_true'] using hall, hglued⟩
  have hne : preprocessingMark.toList ++ glued ≠ [] :=
    List.append_ne_nil_of_left_ne_nil (by decide) glued
  rw [← List.append_assoc, Text.wordsList_word hne hmark hrest,
    firstNumber_cons (not_isNumber_mark glued)]
  by_cases hnil : glued = []
  · rw [hnil, List.nil_append]
  · rw [Text.wordsList_word hnil hglued hrest, firstNumber_cons hnumber]

section Latest

variable {given? : String → Option α} {Gives : String → α → Prop}
  (hread : ∀ line a, given? line = some a ↔ Gives line a)

include hread

/-- Nothing is read of any line if no line gives anything. -/
theorem latest?_eq_none {output : List String} :
    latest? given? output = none ↔ NeverGiven Gives output := by
  rw [latest?, List.findSome?_eq_none_iff]
  simp only [List.mem_reverse, Option.eq_none_iff_forall_ne_some, ne_eq, hread, NeverGiven]

/-- What is read of a report is what was given last, if anything was. -/
theorem latest?_cases (output : List String) :
    (∃ a, latest? given? output = some a ∧ LastGiven Gives output a) ∨
      (latest? given? output = none ∧ NeverGiven Gives output) := by
  cases hlatest : latest? given? output with
  | none => exact Or.inr ⟨rfl, (latest?_eq_none hread).mp hlatest⟩
  | some a =>
    -- The search goes through the report from its end, so the lines it has passed are the later
    -- ones.
    rcases List.findSome?_eq_some_iff.mp hlatest with ⟨after, line, before, hsplit, hline, hafter⟩
    refine Or.inl ⟨a, rfl, before.reverse, line, after.reverse, ?_, (hread line a).mp hline, ?_⟩
    · rw [← List.reverse_reverse output, hsplit, List.reverse_append, List.reverse_cons,
        List.append_assoc]
      rfl
    · intro later hlater b hb
      rw [← hread, hafter later (List.mem_reverse.mp hlater)] at hb
      cases hb

/-- Lines that give nothing can stand anywhere. -/
theorem latest?_skip {lines : List String} (hnever : NeverGiven Gives lines)
    (before after : List String) :
    latest? given? (before ++ (lines ++ after)) = latest? given? (before ++ after) := by
  have hnone : lines.reverse.findSome? given? = none := (latest?_eq_none hread).mpr hnever
  simp only [latest?, List.reverse_append, List.findSome?_append, hnone, Option.or_none]

end Latest

/-- The statistics after a report of the tool or of the application. -/
theorem absorb_tool {framework : Framework} (htool : framework.drivesTool = true)
    (output : List String) (runs : Nat) (stats : Statistics) :
    absorb output framework runs stats = .ok (replaced runs (latest? preprocessingOf? output)
      (latest? timingsOf? output) stats) := by
  rw [← foldl_absorbLine]
  cases framework with
  | tflite => rfl
  | tfliteApp => rfl
  | snpe => cases htool
  | mlperf => cases htool

/-- What a report of the tool or of the application makes of any statistics:

    * there always is a result, and it differs in three times at most;
    * the preprocessing time is the one that was given last, and stays if none is given;
    * the initialisation time and the inference time are those of the line that gave them last,
      without the share of the offload total, and both stay if no line gives them;
    * lines that give nothing can be put in or left out anywhere;
    * the same report a second time changes nothing;
    * no runs count as one;
    * if no number is glued to the mark of the preprocessing time, then the number can be looked
      for among all words of the line. -/
theorem last_given_wins {framework : Framework} (htool : framework.drivesTool = true)
    (output : List String) (runs : Nat) (stats : Statistics) :
    ∃ result, absorb output framework runs stats = .ok result ∧
      (result.postproc = stats.postproc ∧ result.offload = stats.offload ∧
        result.delegation = stats.delegation) ∧
      ((∃ n, LastGiven GivesPreprocessing output n ∧ result.preproc = n) ∨
        (NeverGiven GivesPreprocessing output ∧ result.preproc = stats.preproc)) ∧
      ((∃ start average, LastGiven GivesTimings output (start, average) ∧ result.init = start ∧
          result.inference = average - stats.offload / max runs 1 / 1000) ∨
        (NeverGiven GivesTimings output ∧ result.init = stats.init ∧
          result.inference = stats.inference)) ∧
      (∀ before lines after, NeverGiven GivesPreprocessing lines →
        NeverGiven GivesTimings lines →
        absorb (before ++ (lines ++ after)) framework runs stats
          = absorb (before ++ after) framework runs stats) ∧
      absorb output framework runs result = .ok result ∧
      absorb output framework 0 stats = absorb output framework 1 stats ∧
      (∀ text glued rest,
        Text.trimList text.toList = preprocessingMark.toList ++ (glued ++ rest) →
        (∀ c ∈ glued, Text.isBlank c = false) → (∀ m, ¬ IsNumber glued m) →
        (∀ c ∈ rest.head?, Text.isBlank c = true) → ∀ n, GivesPreprocessing text n ↔
          FirstNumber (Text.wordsList (Text.trimList text.toList)) n) := by
  refine ⟨replaced runs (latest? preprocessingOf? output) (latest? timingsOf? output) stats,
    absorb_tool htool output runs stats, ⟨rfl, rfl, rfl⟩, ?_, ?_, ?_, ?_, ?_, ?_⟩
  -- The preprocessing time and the two others are looked for apart, each from the last line
  -- back.
  · rcases latest?_cases (fun _ _ => preprocessingOf?_eq_some) output with
      ⟨n, hlatest, hgiven⟩ | ⟨hlatest, hnever⟩
    · rw [hlatest]
      exact Or.inl ⟨n, hgiven, rfl⟩
    · rw [hlatest]
      exact Or.inr ⟨hnever, rfl⟩
  · rcases latest?_cases (fun _ _ => timingsOf?_eq_some) output with
      ⟨times, hlatest, hgiven⟩ | ⟨hlatest, hnever⟩
    · rw [hlatest]
      exact Or.inl ⟨times.1, times.2, hgiven, rfl, rfl⟩
    · rw [hlatest]
      exact Or.inr ⟨hnever, rfl, rfl⟩
  -- A line that gives nothing is passed over wherever it stands.
  · intro before lines after hpreprocessing htimings
    rw [absorb_tool htool, absorb_tool htool,
      latest?_skip (fun _ _ => preprocessingOf?_eq_some) hpreprocessing,
      latest?_skip (fun _ _ => timingsOf?_eq_some) htimings]
  · rw [absorb_tool htool, replaced_replaced, Option.or_self, Option.or_self]
  · rw [absorb_tool htool, absorb_tool htool]
    rfl
  -- A word that is glued to the mark cannot be the number, so the others decide.
  · intro text glued rest htext hglued hnumber hrest n
    rw [htext, firstNumber_mark hglued hnumber hrest]
    constructor
    · rintro ⟨other, hother, hfirst⟩
      rw [List.append_cancel_left (htext.symm.trans hother)]
      exact hfirst
    · exact fun hfirst => ⟨glued ++ rest, htext, hfirst⟩

/-- A report in which one of the last lines has no number and the other no ASCII digits. -/
def spoiledReport : List String :=
  ["PRE-PROCESSING: 12 us", "Inference timings in us: Init: 5.5, Inference (avg): 30.25",
    "PRE-PROCESSING: none", "Inference timings in us: Init: ٣, Inference (avg): 7"]

/-- The case of a report in which later lines are spoiled: they give nothing, so the last lines
    that can be read stand. -/
theorem last_given_wins_spoiled :
    Framework.tflite.drivesTool = true ∧
      absorb spoiledReport .tflite 2 ⟨1, 2, 3, 4000, 5, 6⟩ = .ok ⟨12, 2, 28, 4000, 5, 5⟩ ∧
      LastGiven GivesPreprocessing spoiledReport 12 ∧
      LastGiven GivesTimings spoiledReport (5, 30) := by
  have hvalue : absorb spoiledReport .tflite 2 ⟨1, 2, 3, 4000, 5, 6⟩
      = .ok ⟨12, 2, 28, 4000, 5, 5⟩ := by decide +kernel
  rcases last_given_wins (show Framework.tflite.drivesTool = true from rfl) spoiledReport 2
    ⟨1, 2, 3, 4000, 5, 6⟩ with ⟨result, hresult, _, hpreprocessing, htimings, _⟩
  -- The numbers are not those from before, so lines of the report gave them.
  cases hresult.symm.trans hvalue
  refine ⟨rfl, hvalue, ?_, ?_⟩
  · rcases hpreprocessing with ⟨n, hgiven, rfl⟩ | ⟨_, hkept⟩
    · exact hgiven
    · exact absurd hkept (by decide)
  · rcases htimings with ⟨start, average, hgiven, rfl, haverage⟩ | ⟨_, hkept, _⟩
    · change 28 = average - 2 at haverage
      obtain rfl : average = 30 := by omega
      exact hgiven
    · exact absurd hkept (by decide)

end Report

end AccelMonitor
