import AccelMonitor.Proofs.Benchmark.Entry
import Mathlib.Algebra.BigOperators.Group.List.Basic
import Mathlib.Algebra.Ring.Nat

/-!
# Sections of a Diagnostic Report

The statistics of a diagnostic report, without going through it line by line.

A line is eligible if the last marker in front of it begins a section and if it is an entry.
That looks at each line on its own, with what is in front of it, and the statistics are
averages of sums over eligible lines. The reader instead keeps whether it is inside a section,
and it never takes a marker line for an entry. A marker line can have the form of one, but
then its label begins like the marker, and no label that is averaged does.

Sums do not depend on an order. So nothing does but the number of sections and which lines are
eligible, and the numbers of different labels can be compared.

## Main definitions

* `Report.opened`: The last marker begins a section.
* `Report.eligible`: The entries of all eligible lines.
* `Report.total`: The sum of a label's numbers.
* `Report.summary`: The statistics from the sums.

## Theorems

* `entries_append`: Entries of one part of a report after the other.
* `total_eligible`: The reader's sums are those over eligible lines.
* `absorb_snpe`: The statistics of a report.
* `summary_conserves`: Where the inference time goes.
* `diagnostic_order_free`: All of it, for every report.
-/

namespace AccelMonitor

namespace Report

/-- The lines of an output, without the blanks around them. -/
def linesOf (output : List String) : List (List Char) :=
  output.map fun s => Text.trimList s.toList

/-- The line is a marker. -/
def isMarker (line : List Char) : Bool :=
  isStart line || isEnd line

/-- The last marker among the lines begins a section. What holds without one is given. -/
def openedFrom (inside : Bool) (lines : List (List Char)) : Bool :=
  ((lines.filter isMarker).getLast?.map isStart).getD inside

/-- The last marker among the lines begins a section. -/
def opened (lines : List (List Char)) : Bool :=
  openedFrom false lines

/-- The entries of all lines in front of which the last marker begins a section. -/
def eligible (lines : List (List Char)) : List (String × Nat) :=
  (List.range lines.length).filterMap fun i =>
    if opened (lines.take i) then lines[i]?.bind entryOf? else none

/-- The sum of a label's numbers. -/
def total (es : List (String × Nat)) (label : String) : Nat :=
  ((es.filter fun e => e.1 = label).map Prod.snd).sum

/-- The statistics of so many sections with these sums. -/
def summary (total : String → Nat) (sections : Nat) : Statistics where
  preproc := 0
  postproc := 0
  inference := total "Forward Propagate Time" / sections
  offload := total "RPC Execute Time" / sections - total "Accelerator Time" / sections
  delegation := total "Forward Propagate Time" / sections - total "RPC Execute Time" / sections
  init := total "Init" / sections

/-- The labels that count. -/
def countedLabels : List String :=
  ["Forward Propagate Time", "RPC Execute Time", "Accelerator Time", "Init"]

theorem openedFrom_cons (inside : Bool) (line : List Char) (lines : List (List Char)) :
    openedFrom inside (line :: lines)
      = openedFrom (if isMarker line then isStart line else inside) lines := by
  rw [openedFrom, openedFrom, List.filter_cons]
  split
  · rw [List.getLast?_cons]
    cases (lines.filter isMarker).getLast? with
    | none => rfl
    | some last => rfl
  · rfl

theorem openedFrom_append (inside : Bool) (before after : List (List Char)) :
    openedFrom inside (before ++ after) = openedFrom (openedFrom inside before) after := by
  induction before generalizing inside with
  | nil => rfl
  | cons line before ih => rw [List.cons_append, openedFrom_cons, ih, ← openedFrom_cons]

/-- What a line adds to the entries. -/
def entryIn (inside : Bool) (line : List Char) : List (String × Nat) :=
  if inside && !isMarker line then (entryOf? line).toList else []

theorem entries_cons (inside : Bool) (line : List Char) (lines : List (List Char)) :
    entries inside (line :: lines)
      = entryIn inside line ++ entries (if isMarker line then isStart line else inside) lines := by
  rw [entries, entryIn, isMarker]
  cases hstart : isStart line with
  | true => cases inside <;> rfl
  | false =>
    cases hend : isEnd line with
    | true => cases inside <;> rfl
    | false => cases inside <;> rfl

/-- The entries of one part of a report after the other. -/
theorem entries_append (inside : Bool) (before after : List (List Char)) :
    entries inside (before ++ after)
      = entries inside before ++ entries (openedFrom inside before) after := by
  induction before generalizing inside with
  | nil => rfl
  | cons line before ih =>
    rw [List.cons_append, entries_cons, entries_cons, ih, openedFrom_cons, List.append_assoc]

/-- A line at the end of a report is an eligible entry if a section is open by then. Eligibility
    looks backwards only, so no line in front of it changes its part, and statements about
    reports can go by induction from their end. -/
theorem eligible_concat (lines : List (List Char)) (line : List Char) :
    eligible (lines ++ [line])
      = eligible lines ++ if opened lines then (entryOf? line).toList else [] := by
  -- What decides about the earlier lines is in front of the new one.
  have hfront : (List.range lines.length).filterMap (fun i =>
      if opened ((lines ++ [line]).take i) then (lines ++ [line])[i]?.bind entryOf? else none)
      = eligible lines := by
    rw [eligible]
    refine List.filterMap_congr fun i hi => ?_
    have hlt := List.mem_range.mp hi
    rw [List.take_append_of_le_length (Nat.le_of_lt hlt), List.getElem?_append_left hlt]
  have hlast : (if opened ((lines ++ [line]).take lines.length) then
      (lines ++ [line])[lines.length]?.bind entryOf? else none).toList
      = if opened lines then (entryOf? line).toList else [] := by
    rw [List.take_left, List.getElem?_concat_length, Option.bind_some]
    cases opened lines with
    | false => rfl
    | true => rfl
  rw [eligible, List.length_append, List.length_singleton, List.range_succ,
    List.filterMap_append, hfront, ← hlast, List.filterMap_cons, List.filterMap_nil]
  split
  · rename_i hnone
    rw [hnone]
    rfl
  · rename_i hsome
    rw [hsome]
    rfl

theorem sumOf_eq_total (label : String) (es : List (String × Nat)) :
    sumOf label es = total es label := by
  induction es with
  | nil => rfl
  | cons e es ih =>
    rw [sumOf, total, List.filter_cons]
    by_cases h : e.1 = label
    · rw [if_pos h, if_pos (decide_eq_true h), List.map_cons, List.sum_cons, ih, total]
    · rw [if_neg h, if_neg (mt of_decide_eq_true h), ih, total]

theorem total_append (es es' : List (String × Nat)) (label : String) :
    total (es ++ es') label = total es label + total es' label := by
  rw [total, List.filter_append, List.map_append, List.sum_append]
  rfl

/-- A sum does not depend on the order. -/
theorem total_perm {es es' : List (String × Nat)} (h : es.Perm es') (label : String) :
    total es label = total es' label :=
  ((h.filter _).map Prod.snd).sum_eq

/-- The label of a line begins like the line, if that begins with a letter. -/
theorem label_head {line : List Char} {label : String} {value : Nat} {c : Char}
    (h : entryOf? line = some (label, value)) (hc : line.head? = some c)
    (hletter : isLetter c = true) : label.toList.head? = some c := by
  rcases entryOf?_eq_some.mp h with ⟨e, rfl, rfl, _⟩
  rw [EntryLine.label, String.toList_ofList]
  have hbefore := e.before_blank
  rw [EntryLine.chars] at hc
  -- No blank stands in front of the label, because the line begins with a letter.
  cases hfront : e.before with
  | nil =>
    rw [hfront] at hc
    exact hc
  | cons d before =>
    rw [hfront] at hc hbefore
    have hblank := hbefore d (List.mem_cons_self ..)
    rw [Option.some.inj hc, isBlank_of_isLetter hletter] at hblank
    cases hblank

/-- The label of a marker line does not count. The markers begin with letters that no counted
    label begins with. -/
theorem not_counted_of_isMarker {line : List Char} {label : String} {value : Nat}
    (hmarker : isMarker line = true) (h : entryOf? line = some (label, value)) :
    label ∉ countedLabels := by
  have hhead : line.head? = some 'D' ∨ line.head? = some 'L' := by
    rw [isMarker, Bool.or_eq_true, isStart, isEnd, List.isPrefixOf_iff_prefix,
      List.isPrefixOf_iff_prefix] at hmarker
    rcases hmarker with ⟨rest, rfl⟩ | ⟨rest, rfl⟩
    · exact Or.inl rfl
    · exact Or.inr rfl
  have hlabels : ∀ label ∈ countedLabels,
      label.toList.head? ≠ some 'D' ∧ label.toList.head? ≠ some 'L' := by
    decide
  intro hcounted
  rcases hhead with hhead | hhead
  · exact (hlabels label hcounted).1 (label_head h hhead (by decide))
  · exact (hlabels label hcounted).2 (label_head h hhead (by decide))

/-- The reader's sums are those over eligible lines. The reader goes by whether a section is open
    at a line, and the eligible lines include the marker as well, whose label is not a counted
    one. -/
theorem total_eligible {label : String} (h : label ∈ countedLabels) (lines : List (List Char)) :
    total (eligible lines) label = total (entries false lines) label := by
  induction lines using List.reverseRecOn with
  | nil => rfl
  | append_singleton lines line ih =>
    rw [eligible_concat, entries_append, total_append, total_append, ih, entries_cons, entries,
      List.append_nil, ← opened, entryIn]
    congr 1
    cases opened lines with
    | false => rfl
    | true =>
      cases hmarker : isMarker line with
      | false => rfl
      | true =>
        -- Only a marker line is eligible and not read, and its label does not count.
        cases hentry : entryOf? line with
        | none => rfl
        | some entry =>
          have hother := not_counted_of_isMarker hmarker hentry
          have hne : entry.1 ≠ label := fun heq => hother (heq ▸ h)
          have hunread : decide (entry.1 = label) = false := decide_eq_false hne
          change total [entry] label = 0
          rw [total, List.filter_cons, hunread]
          rfl

/-- The number of start markers. -/
def sections (output : List String) : Nat :=
  (linesOf output).countP isStart

/-- The sums over the eligible lines of an output. -/
def sums (output : List String) : String → Nat :=
  total (eligible (linesOf output))

theorem summary_congr {t t' : String → Nat} (h : ∀ label ∈ countedLabels, t label = t' label)
    (n : Nat) : summary t n = summary t' n := by
  have hforward := h "Forward Propagate Time" (by decide)
  have hremote := h "RPC Execute Time" (by decide)
  have haccelerator := h "Accelerator Time" (by decide)
  have hinit := h "Init" (by decide)
  rw [summary, summary, hforward, hremote, haccelerator, hinit]

theorem diagnostic_eq (output : List String) : diagnostic output
    = summary (total (entries false (linesOf output))) (max (sections output) 1) := by
  simp only [diagnostic, sumOf_eq_total]
  rfl

/-- The statistics of a report. -/
theorem absorb_snpe (output : List String) (runs : Nat) (stats : Statistics) :
    absorb output .snpe runs stats = .ok (summary (sums output) (max (sections output) 1)) := by
  have hsums : ∀ label ∈ countedLabels,
      sums output label = total (entries false (linesOf output)) label :=
    fun label hlabel => total_eligible hlabel (linesOf output)
  rw [summary_congr hsums, ← diagnostic_eq]
  rfl

/-- Only the entries count, in any order, and the number of sections. -/
theorem diagnostic_congr {output others : List String}
    (hsections : sections others = sections output)
    (h : (entries false (linesOf others)).Perm (entries false (linesOf output))) :
    diagnostic others = diagnostic output := by
  rw [diagnostic_eq, diagnostic_eq, hsections]
  exact summary_congr (fun label _ => total_perm h label) _

theorem linesOf_append (before after : List String) :
    linesOf (before ++ after) = linesOf before ++ linesOf after :=
  List.map_append

theorem sections_append (before after : List String) :
    sections (before ++ after) = sections before + sections after := by
  rw [sections, linesOf_append, List.countP_append]
  rfl

/-- A line that is no marker begins no section. -/
theorem sections_cons {line : String} (h : isMarker (Text.trimList line.toList) = false)
    (after : List String) : sections (line :: after) = sections after := by
  rw [isMarker, Bool.or_eq_false_iff] at h
  rw [sections, linesOf, List.map_cons, List.countP_cons_of_neg (by rw [h.1]; decide)]
  rfl

/-- What a line adds that is no marker. -/
theorem entries_line {line : String} (h : isMarker (Text.trimList line.toList) = false)
    (before after : List String) :
    entries false (linesOf (before ++ line :: after))
      = entries false (linesOf before)
        ++ ((if opened (linesOf before) then (entryOf? (Text.trimList line.toList)).toList else [])
        ++ entries (opened (linesOf before)) (linesOf after)) := by
  have hlines : linesOf (before ++ line :: after)
      = linesOf before ++ Text.trimList line.toList :: linesOf after := List.map_append
  rw [hlines, entries_append, entries_cons, entryIn, h, if_neg Bool.false_ne_true, Bool.not_false,
    Bool.and_true, opened]

/-- A line is left out if it is no marker and adds nothing. -/
theorem diagnostic_skip {line : String} (h : isMarker (Text.trimList line.toList) = false)
    {before : List String} (hnone : opened (linesOf before) = false ∨
      entryOf? (Text.trimList line.toList) = none) (after : List String) :
    diagnostic (before ++ after) = diagnostic (before ++ line :: after) := by
  refine diagnostic_congr ?_ (List.Perm.of_eq ?_)
  · rw [sections_append, sections_append, sections_cons h]
  · rw [entries_line h, linesOf_append, entries_append, ← opened]
    rcases hnone with hnone | hnone
    · rw [hnone, if_neg Bool.false_ne_true, List.nil_append]
    · rw [hnone, Option.toList_none, ite_self, List.nil_append]

/-- What two lines inside sections add that are no markers. Each stands between the entries before
    it and behind it, which do not depend on it. -/
theorem entries_pair {u v : String} (hu : isMarker (Text.trimList u.toList) = false)
    (hv : isMarker (Text.trimList v.toList) = false) {before mid : List String}
    (hbefore : opened (linesOf before) = true) (hmid : openedFrom true (linesOf mid) = true)
    (after : List String) :
    entries false (linesOf (before ++ u :: (mid ++ v :: after)))
      = entries false (linesOf before) ++ ((entryOf? (Text.trimList u.toList)).toList
        ++ (entries true (linesOf mid) ++ ((entryOf? (Text.trimList v.toList)).toList
        ++ entries true (linesOf after)))) := by
  have hlines : linesOf (mid ++ v :: after)
      = linesOf mid ++ Text.trimList v.toList :: linesOf after := List.map_append
  rw [entries_line hu, hbefore, if_pos rfl, hlines, entries_append, hmid, entries_cons, entryIn, hv,
    if_neg Bool.false_ne_true]
  rfl

/-- Two lines inside sections change places. Both stand where a section is open, before and after
    the exchange, since neither of them opens one, and sums do not depend on the order of what is
    added. -/
theorem diagnostic_swap {x y : String} (hx : isMarker (Text.trimList x.toList) = false)
    (hy : isMarker (Text.trimList y.toList) = false) {before mid : List String}
    (hbefore : opened (linesOf before) = true)
    (hopened : opened (linesOf (before ++ x :: mid)) = true) (after : List String) :
    diagnostic (before ++ y :: (mid ++ x :: after))
      = diagnostic (before ++ x :: (mid ++ y :: after)) := by
  -- Between the two lines a section is open as well, for it never closes.
  have hmid : openedFrom true (linesOf mid) = true := by
    have hlines : linesOf (before ++ x :: mid)
        = linesOf before ++ Text.trimList x.toList :: linesOf mid := List.map_append
    rw [opened, hlines, openedFrom_append, ← opened, hbefore, openedFrom_cons, hx,
      if_neg Bool.false_ne_true] at hopened
    exact hopened
  refine diagnostic_congr ?_ ?_
  · rw [sections_append, sections_append, sections_cons hx, sections_cons hy, sections_append,
      sections_append, sections_cons hx, sections_cons hy]
  · rw [entries_pair hx hy hbefore hmid, entries_pair hy hx hbefore hmid, List.perm_iff_count]
    intro entry
    simp only [List.count_append]
    omega

/-- Where the inference time goes. -/
theorem summary_conserves {t : String → Nat} (n : Nat)
    (hremote : t "RPC Execute Time" ≤ t "Forward Propagate Time")
    (haccelerator : t "Accelerator Time" ≤ t "RPC Execute Time") :
    (summary t n).inference
      = (summary t n).delegation + (summary t n).offload + t "Accelerator Time" / n := by
  have hforward := Nat.div_le_div_right (c := n) hremote
  have hlast := Nat.div_le_div_right (c := n) haccelerator
  simp only [summary]
  omega

/-- Without a start marker everything is zero. -/
theorem diagnostic_zero {output : List String}
    (h : ∀ line ∈ output, isStart (Text.trimList line.toList) = false) :
    diagnostic output = Statistics.zero := by
  have hlines : ∀ line ∈ linesOf output, isStart line = false := List.forall_mem_map.mpr h
  have hentries := entries_append_outside hlines []
  rw [List.append_nil] at hentries
  rw [diagnostic_eq, hentries]
  simp only [summary, total, entries, List.filter_nil, List.map_nil, List.sum_nil, Nat.zero_div,
    Nat.sub_self, Statistics.zero]

/-- The statistics of a diagnostic report, whatever the report is:

    * they are the averages of the sums over the eligible lines, and differences of these;
    * a line is an entry if it is laid out like one and its number fits into 64 bits;
    * the number of runs and what the statistics were do not matter;
    * neither does anything but the number of sections and which lines are eligible, in
      particular no line that is outside sections or no entry, and no order of two lines;
    * without a section everything is zero;
    * if the sums are in order, the inference time is what the other times add up to. -/
theorem diagnostic_order_free (output : List String) (runs : Nat) (stats : Statistics) :
    absorb output .snpe runs stats = .ok (summary (sums output) (max (sections output) 1)) ∧
    (∀ (line : String) (label : String) (value : Nat),
      entryOf? (Text.trimList line.toList) = some (label, value) ↔
        IsEntry line.toList label value) ∧
    (∀ runs' stats', absorb output .snpe runs' stats' = absorb output .snpe runs stats) ∧
    (∀ others, sections others = sections output →
      (eligible (linesOf others)).Perm (eligible (linesOf output)) →
      absorb others .snpe runs stats = absorb output .snpe runs stats) ∧
    (∀ before line after, output = before ++ line :: after →
      isMarker (Text.trimList line.toList) = false →
      (opened (linesOf before) = false ∨ ∀ label value, ¬ IsEntry line.toList label value) →
      absorb (before ++ after) .snpe runs stats = absorb output .snpe runs stats) ∧
    (∀ before x mid y after, output = before ++ x :: (mid ++ y :: after) →
      isMarker (Text.trimList x.toList) = false → isMarker (Text.trimList y.toList) = false →
      opened (linesOf before) = true → opened (linesOf (before ++ x :: mid)) = true →
      absorb (before ++ y :: (mid ++ x :: after)) .snpe runs stats
        = absorb output .snpe runs stats) ∧
    ((∀ line ∈ output, isStart (Text.trimList line.toList) = false) →
      absorb output .snpe runs stats = .ok Statistics.zero) ∧
    (sums output "RPC Execute Time" ≤ sums output "Forward Propagate Time" →
      sums output "Accelerator Time" ≤ sums output "RPC Execute Time" →
      ∀ result, absorb output .snpe runs stats = .ok result →
        result.inference = result.delegation + result.offload
          + sums output "Accelerator Time" / max (sections output) 1) := by
  have hentry : ∀ (line : String) (label : String) (value : Nat),
      entryOf? (Text.trimList line.toList) = some (label, value) ↔
        IsEntry line.toList label value := by
    intro line label value
    rw [entryOf?_eq_some, isEntry_trimList]
  -- Only the sums and the number of sections count, so each clause asks what becomes of them.
  refine ⟨absorb_snpe output runs stats, hentry, fun _ _ => rfl, ?_, ?_, ?_, ?_, ?_⟩
  -- A sum does not depend on the order of its terms.
  · intro others hsections heligible
    have hsums : sums others = sums output := by
      funext label
      exact total_perm heligible label
    rw [absorb_snpe, absorb_snpe, hsections, hsums]
  · rintro before line after rfl hmarker hnone
    -- A line outside sections, or one that is no entry, is no term of a sum.
    have hnone' : opened (linesOf before) = false ∨
        entryOf? (Text.trimList line.toList) = none := by
      refine hnone.imp id fun hno => ?_
      rw [Option.eq_none_iff_forall_not_mem]
      rintro ⟨label, value⟩ hread
      exact hno label value ((hentry line label value).mp hread)
    exact congrArg Except.ok (diagnostic_skip hmarker hnone' after)
  · rintro before x mid y after rfl hx hy hbefore hopened
    exact congrArg Except.ok (diagnostic_swap hx hy hbefore hopened after)
  · intro hnone
    exact congrArg Except.ok (diagnostic_zero hnone)
  · intro hremote haccelerator result hresult
    rw [absorb_snpe] at hresult
    rw [← Except.ok.inj hresult]
    exact summary_conserves _ hremote haccelerator

end Report

end AccelMonitor
