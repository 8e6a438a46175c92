import AccelMonitor.KernelLog.Buckets

/-!
# What Sorting Does

The buckets of a log, said without the sorting.

`KernelLog.classify` goes through a log once and appends each line to a bucket.
What comes out is simpler than how: the bucket that a probe is looked up by holds
exactly the lines of that probe, in the order of the log. This is `get_classify`,
and it holds for any list of probes, because a line's probe is always one of the
configured ones and lines are added to the bucket that is looked up.

A probe may be configured twice, and then there are buckets that no look-up
finds. Statements about every line that was kept are therefore about
`Buckets.lines`, which leaves no bucket out.

## Main definitions

* `Buckets.lines`: The lines of all buckets.
* `KernelLog.linesOf`: The lines of a probe in a log.

## Theorems

* `isEmpty_iff`: Buckets are empty when they have no lines.
* `mem_lines_of_mem_get`: What is looked up is among the lines.
* `mem_lines_update`: Where a line comes from when a bucket is changed.
* `get_eq_lines`: Without repetition every bucket is looked up by its probe.
* `get_classify`: A log is sorted into the lines of each probe.
* `mem_lines_classify`: What was sorted is a probe line of the log.
-/

namespace AccelMonitor

namespace Buckets

/-- The lines of all buckets, bucket after bucket. -/
def lines (b : Buckets) : List String :=
  b.flatMap Bucket.lines

theorem mem_lines {b : Buckets} {line : String} :
    line ∈ b.lines ↔ ∃ bucket ∈ b, line ∈ bucket.lines :=
  List.mem_flatMap

theorem lines_empty (probes : List KernelProbe) : (empty probes).lines = [] := by
  rw [lines, List.flatMap_eq_nil_iff]
  intro bucket hbucket
  rcases List.mem_map.mp hbucket with ⟨p, _, rfl⟩
  rfl

theorem probes_empty (probes : List KernelProbe) : (empty probes).probes = probes := by
  rw [Buckets.probes, empty, List.map_map]
  exact List.map_id probes

theorem isEmpty_iff {b : Buckets} : b.isEmpty = true ↔ b.lines = [] := by
  rw [isEmpty, List.all_eq_true, lines, List.flatMap_eq_nil_iff]
  constructor
  · intro h bucket hbucket
    exact List.isEmpty_iff.mp (h bucket hbucket)
  · intro h bucket hbucket
    exact List.isEmpty_iff.mpr (h bucket hbucket)

/-- What is looked up is among the lines. -/
theorem mem_lines_of_mem_get {b : Buckets} {p : KernelProbe} {line : String}
    (h : line ∈ b.get p) : line ∈ b.lines := by
  rw [get] at h
  cases hfind : b.find? fun bucket => bucket.probe = p with
  | none =>
    rw [hfind] at h
    exact absurd h List.not_mem_nil
  | some bucket =>
    rw [hfind] at h
    exact mem_lines.mpr ⟨bucket, List.mem_of_find?_eq_some hfind, h⟩

/-- Without lines there is nothing to look up. -/
theorem get_eq_nil {b : Buckets} (h : b.lines = []) (p : KernelProbe) : b.get p = [] := by
  rw [List.eq_nil_iff_forall_not_mem]
  intro line hline
  have hmem := mem_lines_of_mem_get hline
  rw [h] at hmem
  exact absurd hmem List.not_mem_nil

/-- A configured probe has a bucket that is found by it. With repetitions it has several, of which
    the first one is found. -/
theorem exists_bucket {b : Buckets} {p : KernelProbe} (h : p ∈ b.probes) :
    ∃ bucket ∈ b, bucket.probe = p ∧ bucket.lines = b.get p := by
  rcases List.mem_map.mp h with ⟨some, hsome, hp⟩
  cases hfind : b.find? fun bucket => bucket.probe = p with
  | none =>
    have hnot := List.find?_eq_none.mp hfind some hsome
    rw [decide_eq_true_eq] at hnot
    exact absurd hp hnot
  | some bucket =>
    have hfound := List.find?_some hfind
    rw [decide_eq_true_eq] at hfound
    refine ⟨bucket, List.mem_of_find?_eq_some hfind, hfound, ?_⟩
    rw [get, hfind, Option.map_some, Option.getD_some]

/-- A line of changed buckets was there before or stands in the bucket that changed. Nothing is
    said of lines that went away, since a change may also drop lines. -/
theorem mem_lines_update {b : Buckets} {p : KernelProbe} {f : List String → List String}
    {line : String} (h : line ∈ (b.update p f).lines) :
    line ∈ b.lines ∨ ∃ bucket ∈ b, line ∈ f bucket.lines := by
  -- Only the first bucket of the probe changes, so the induction ends there.
  induction b with
  | nil => exact absurd h List.not_mem_nil
  | cons bucket rest ih =>
    rw [update] at h
    split at h
    · rw [lines, List.flatMap_cons, List.mem_append] at h
      rcases h with h | h
      · exact Or.inr ⟨bucket, List.mem_cons_self .., h⟩
      · refine Or.inl ?_
        rw [lines, List.flatMap_cons, List.mem_append]
        exact Or.inr h
    · rw [lines, List.flatMap_cons, List.mem_append] at h
      rw [lines, List.flatMap_cons, List.mem_append]
      rcases h with h | h
      · exact Or.inl (Or.inl h)
      · rcases ih h with h | ⟨other, hother, h⟩
        · exact Or.inl (Or.inr h)
        · exact Or.inr ⟨other, List.mem_cons_of_mem bucket hother, h⟩

/-- Without repetition every bucket is the one that is looked up by its probe. -/
theorem get_eq_lines {b : Buckets} (hb : b.probes.Nodup) {bucket : Bucket} (h : bucket ∈ b) :
    b.get bucket.probe = bucket.lines := by
  induction b with
  | nil => exact absurd h List.not_mem_nil
  | cons first rest ih =>
    rw [probes, List.map_cons, List.nodup_cons] at hb
    rcases List.mem_cons.mp h with rfl | h
    · simp only [get, List.find?_cons, decide_true, Option.map_some, Option.getD_some]
    · -- The look-up passes this bucket, whose probe is another one.
      have hne : first.probe ≠ bucket.probe := by
        intro heq
        rw [heq] at hb
        exact hb.1 (List.mem_map_of_mem h)
      simp only [get, List.find?_cons, hne, decide_false]
      exact ih hb.2 h

end Buckets

namespace KernelLog

/-- A line of one of the configured probes. -/
def isProbeLine (probes : List KernelProbe) (line : String) : Bool :=
  (probe? probes line).isSome

theorem probes_classify (probes : List KernelProbe) (log : List String) :
    (classify probes log).probes = probes := by
  have hplace : ∀ b : Buckets, (log.foldl (place probes) b).probes = b.probes := by
    induction log with
    | nil => exact fun b => rfl
    | cons line log ih =>
      intro b
      rw [List.foldl_cons, ih, place]
      split
      · exact Buckets.probes_add ..
      · rfl
  rw [classify, hplace, Buckets.probes_empty]

/-- The lines of a probe, in the order of the log. -/
def linesOf (probes : List KernelProbe) (p : KernelProbe) (log : List String) : List String :=
  log.filter fun line => probe? probes line = some p

theorem mem_linesOf {probes : List KernelProbe} {p : KernelProbe} {log : List String}
    {line : String} : line ∈ linesOf probes p log ↔ line ∈ log ∧ probe? probes line = some p := by
  rw [linesOf, List.mem_filter, decide_eq_true_eq]

theorem linesOf_append (probes : List KernelProbe) (p : KernelProbe) (log more : List String) :
    linesOf probes p (log ++ more) = linesOf probes p log ++ linesOf probes p more :=
  List.filter_append ..

theorem linesOf_flatten (probes : List KernelProbe) (p : KernelProbe) (logs : List (List String)) :
    linesOf probes p logs.flatten = logs.flatMap (linesOf probes p) :=
  List.filter_flatten

/-- Sorting more lines into some buckets appends to each probe its own, in the order of the log. A
    probe that is not listed gets none. -/
theorem get_foldl_place {probes : List KernelProbe} {b : Buckets} (hb : b.probes = probes)
    (log : List String) (p : KernelProbe) :
    (log.foldl (place probes) b).get p = b.get p ++ linesOf probes p log := by
  unfold linesOf
  -- By induction on the log, from any buckets of these probes.
  induction log generalizing b with
  | nil => rw [List.foldl_nil, List.filter_nil, List.append_nil]
  | cons line log ih =>
    rw [List.foldl_cons, place, List.filter_cons]
    cases hq : probe? probes line with
    | none =>
      rw [if_neg (by simp only [reduceCtorEq, decide_false, Bool.false_eq_true,
        not_false_eq_true])]
      exact ih hb
    | some q =>
      have hadd : (b.add q line).probes = probes := (Buckets.probes_add b q line).trans hb
      simp only [Option.some.injEq, decide_eq_true_eq]
      rw [ih hadd, Buckets.get_add, hb]
      by_cases hqp : q = p
      · rw [if_pos ⟨hqp, probe?_mem hq⟩, if_pos hqp, List.append_assoc, List.singleton_append]
      · rw [if_neg fun h => hqp h.1, if_neg hqp]

/-- A log is sorted into the lines of each probe. -/
theorem get_classify (probes : List KernelProbe) (log : List String) (p : KernelProbe) :
    (classify probes log).get p = linesOf probes p log := by
  rw [classify, get_foldl_place (Buckets.probes_empty probes),
    Buckets.get_eq_nil (Buckets.lines_empty probes), List.nil_append]

/-- Sorting more lines into some buckets adds probe lines only. A line that no probe matches is
    dropped where it is sorted. -/
theorem mem_lines_foldl_place {probes : List KernelProbe} {b : Buckets} {log : List String}
    {line : String} (h : line ∈ (log.foldl (place probes) b).lines) :
    line ∈ b.lines ∨ (line ∈ log ∧ isProbeLine probes line = true) := by
  induction log generalizing b with
  | nil => exact Or.inl h
  | cons first log ih =>
    rcases ih h with h | ⟨hmem, hprobe⟩
    · rw [place] at h
      cases hq : probe? probes first with
      | none =>
        rw [hq] at h
        exact Or.inl h
      | some q =>
        rw [hq] at h
        rcases Buckets.mem_lines_update h with h | ⟨bucket, hbucket, h⟩
        · exact Or.inl h
        · -- The bucket that changed holds its old lines and the new one.
          rcases List.mem_append.mp h with h | h
          · exact Or.inl (Buckets.mem_lines.mpr ⟨bucket, hbucket, h⟩)
          · rw [List.mem_singleton.mp h]
            refine Or.inr ⟨List.mem_cons_self .., ?_⟩
            rw [isProbeLine, hq]
            rfl
    · exact Or.inr ⟨List.mem_cons_of_mem first hmem, hprobe⟩

/-- What was sorted is a probe line of the log. -/
theorem mem_lines_classify {probes : List KernelProbe} {log : List String} {line : String}
    (h : line ∈ (classify probes log).lines) : line ∈ log ∧ isProbeLine probes line = true := by
  rcases mem_lines_foldl_place h with h | h
  · rw [Buckets.lines_empty] at h
    exact absurd h List.not_mem_nil
  · exact h

end KernelLog

end AccelMonitor
