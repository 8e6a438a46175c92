import AccelMonitor.Proofs.KernelLog.Delta

/-!
# Readings and Runs

What a reading does to a reader, and readings one after the other.

The log is read in two ways, with and without counting its lines, and the command
that prints it may fail. For everything but the counts the two ways are the same,
so one inversion lemma serves both: `updated_of_read` says all that a successful
reading changes, and every invariant of a reader is derived from it. The other
direction is `exists_read`. A reading succeeds when its walks do, because counting
reads the times of the delta once more, and these have been read before.

A run is a list of polls. A failed poll leaves the reader as it was and publishes
nothing.

## Main definitions

* `KernelReading`, `KernelPoll`: A way to read the log, with what was printed.
* `KernelReader.read`, `poll`, `run`: The reader after one and after all polls.
* `KernelReader.publications`: What the successful polls of a run publish.
* `KernelReader.deltaOf`, `newestOf`: What a reading finds in a log.
* `KernelReader.WalksThrough`: The walks through a log succeed.
* `KernelReader.Updated`: What a successful reading changes.

## Theorems

* `updated_of_read`: A successful reading is an update.
* `nextCounted_eq_ok`: What a counted reading is.
* `exists_read`: A reading whose walks succeed is successful.
* `nextCounted_eq_error_iff`: The two ways of reading fail together.
-/

namespace AccelMonitor

/-- A way to read the log. -/
inductive KernelReading where
  /-- Only what is new. -/
  | plain
  /-- What is new, counted. -/
  | counted (full : Bool) (threshold : Binary64)

/-- A reading and what the command printed. -/
structure KernelPoll where
  reading : KernelReading
  answer : Answer

namespace KernelReader

open KernelLog

/-- The reader after a reading. -/
def read (r : KernelReader) (p : KernelPoll) : Except Failure KernelReader :=
  match p.reading with
  | .plain => r.next p.answer
  | .counted full threshold => r.nextCounted full threshold p.answer

/-- The reader after a poll, which may have failed. -/
def poll (r : KernelReader) (p : KernelPoll) : KernelReader :=
  r.after (r.read p)

/-- The reader after some polls. -/
def run (r : KernelReader) (polls : List KernelPoll) : KernelReader :=
  polls.foldl poll r

/-- What a poll publishes, if it succeeds. -/
def publication (r : KernelReader) (p : KernelPoll) : List KernelSnapshot :=
  match r.read p with
  | .ok r' => [r'.published]
  | .error _ => []

/-- What the successful polls of a run publish, in order. -/
def publications (r : KernelReader) : List KernelPoll → List KernelSnapshot
  | [] => []
  | p :: polls => r.publication p ++ (r.poll p).publications polls

/-- The new lines of a log. -/
def deltaOf (r : KernelReader) (log : List String) : Buckets :=
  putKept r.watermark (classify r.probes log) (Buckets.empty r.probes)

/-- The newest time of the new lines of a log, at least the watermark. -/
def newestOf (r : KernelReader) (log : List String) : Binary64 :=
  newest r.watermark ((classify r.probes log).flatMap (taken r.watermark))

/-- The walks through all buckets of a log succeed. -/
def WalksThrough (r : KernelReader) (log : List String) : Prop :=
  ∀ bucket ∈ classify r.probes log, ∃ l, newer r.watermark bucket.lines.reverse = .ok l

/-- What a successful reading of a log makes of a reader. Plain and counted readings both do
    this, and what counted ones find out about drivers comes on top. -/
structure Updated (r : KernelReader) (log : List String) (r' : KernelReader) : Prop where
  walks : r.WalksThrough log
  probes : r'.probes = r.probes
  utilization : r'.utilization = r.utilization
  delta : r'.delta = r.deltaOf log
  fresh : r'.fresh = !(r.deltaOf log).isEmpty
  watermark : r'.watermark = if (r.deltaOf log).isEmpty then r.watermark else r.newestOf log
  counts : (r.deltaOf log).isEmpty = true → ∀ d, r'.counts.get d = 0

/-- Accepting what was found is an update. If nothing was found, the watermark stays and the
    counts go back to zero. -/
theorem updated_accept {r : KernelReader} {log : List String} (hw : r.WalksThrough log) :
    r.Updated log (r.accept (r.deltaOf log) (r.newestOf log)) := by
  cases h : (r.deltaOf log).isEmpty with
  | true =>
    simp only [accept, h, if_true]
    exact ⟨hw, rfl, rfl, rfl, by rw [h]; rfl, by rw [h, if_pos rfl],
      fun _ => Counts.get_zeroed r.counts⟩
  | false =>
    simp only [accept, h, Bool.false_eq_true, if_false]
    refine ⟨hw, rfl, rfl, rfl, by rw [h]; rfl, by rw [h, if_neg Bool.false_ne_true], ?_⟩
    intro hempty
    rw [h] at hempty
    exact absurd hempty Bool.false_ne_true

/-- An update stays one when the counts are replaced, as long as nothing is counted where
    there is nothing. -/
theorem Updated.replaceCounts {r r' : KernelReader} {log : List String} {counts : Counts}
    (h : r.Updated log r') (hc : (r.deltaOf log).isEmpty = true → ∀ d, counts.get d = 0) :
    r.Updated log { r' with counts } :=
  ⟨h.walks, h.probes, h.utilization, h.delta, h.fresh, h.watermark, hc⟩

/-- A reading without counting accepts what it finds, and it succeeds only if all walks do. -/
theorem next_eq_ok {r r' : KernelReader} {answer : Answer} (h : r.next answer = .ok r') :
    ∃ log, answer = .ok log ∧ r.WalksThrough log ∧
      r' = r.accept (r.deltaOf log) (r.newestOf log) := by
  cases answer with
  | error f => cases h
  | ok log =>
    rw [next] at h
    rcases hfound : advance r.watermark (classify r.probes log) (Buckets.empty r.probes)
      r.watermark with f | found
    · rw [hfound] at h
      cases h
    · rw [hfound] at h
      -- The result comes from all walks together, so each of them succeeded.
      rcases advance_eq_ok.mp hfound with ⟨hwalks, rfl⟩
      exact ⟨log, rfl, hwalks, (Except.ok.inj h).symm⟩

theorem next_of_walks {r : KernelReader} {log : List String} (hw : r.WalksThrough log) :
    r.next (.ok log) = .ok (r.accept (r.deltaOf log) (r.newestOf log)) := by
  have hfound : advance r.watermark (classify r.probes log) (Buckets.empty r.probes) r.watermark
      = .ok (r.deltaOf log, r.newestOf log) := advance_eq_ok.mpr ⟨hw, rfl⟩
  rw [next, hfound]
  rfl

/-- Either way of choosing lines chooses none where there are none. -/
theorem eligible_nil (full : Bool) (threshold : Binary64) :
    eligible full threshold [] = .ok [] := by
  cases full with
  | true => rfl
  | false => rfl

/-- Counting changes the counts alone: the lines that are chosen are counted from zero. -/
theorem count_eq_ok {r r' : KernelReader} {full : Bool} {threshold : Binary64}
    (h : r.count full threshold = .ok r') :
    ∃ lines, eligible full threshold (r.delta.get r.utilization) = .ok lines ∧
      r' = { r with counts := countDrivers r.utilization r.counts.zeroed lines } := by
  rw [count] at h
  cases helig : eligible full threshold (r.delta.get r.utilization) with
  | error f =>
    rw [helig] at h
    cases h
  | ok lines =>
    rw [helig] at h
    exact ⟨lines, rfl, (Except.ok.inj h).symm⟩

/-- A counted reading is one without counting, and then its lines are counted. -/
theorem nextCounted_eq_ok {r r' : KernelReader} {full : Bool} {threshold : Binary64}
    {answer : Answer} (h : r.nextCounted full threshold answer = .ok r') :
    ∃ r₁ lines, r.next answer = .ok r₁ ∧
      eligible full threshold (r₁.delta.get r₁.utilization) = .ok lines ∧
      r' = { r₁ with counts := countDrivers r₁.utilization r₁.counts.zeroed lines } := by
  unfold nextCounted at h
  cases hnext : r.next answer with
  | error f =>
    rw [hnext] at h
    cases h
  | ok r₁ =>
    rw [hnext] at h
    rcases count_eq_ok h with ⟨lines, helig, hr'⟩
    exact ⟨r₁, lines, rfl, helig, hr'⟩

/-- Lines whose times can be read can be searched for a time. -/
theorem since_isOk (cutoff : Binary64) {lines : List String}
    (h : ∀ line ∈ lines, ∃ t, time line = .ok t) : ∃ found, since cutoff lines = .ok found := by
  induction lines with
  | nil => exact ⟨[], rfl⟩
  | cons line older ih =>
    rcases h line (List.mem_cons_self ..) with ⟨t, ht⟩
    rcases ih fun l hl => h l (List.mem_cons_of_mem line hl) with ⟨found, hfound⟩
    rw [since, ht, hfound]
    by_cases hlt : t.lt cutoff = true
    · exact ⟨[], by simp only [if_pos hlt]⟩
    · exact ⟨line :: found, by simp only [if_neg hlt]⟩

/-- Lines whose times can be read can be counted. In the full count no time is needed; otherwise
    the cutoff is taken from the last line and the search goes back from there. -/
theorem count_isOk {r : KernelReader} (full : Bool) (threshold : Binary64)
    (h : ∀ line ∈ r.delta.get r.utilization, ∃ t, time line = .ok t) :
    ∃ r', r.count full threshold = .ok r' := by
  have helig : ∃ lines, eligible full threshold (r.delta.get r.utilization) = .ok lines := by
    cases full with
    | true => exact ⟨_, rfl⟩
    | false =>
      cases hlast : (r.delta.get r.utilization).getLast? with
      | none =>
        refine ⟨r.delta.get r.utilization, ?_⟩
        simp only [eligible, hlast]
      | some last =>
        -- The cutoff needs the time of the last line, the search those of the others.
        have hreverse : ∀ line ∈ (r.delta.get r.utilization).reverse, ∃ t, time line = .ok t :=
          fun line hline => h line (List.mem_reverse.mp hline)
        rcases h last (List.mem_of_getLast? hlast) with ⟨t, ht⟩
        rcases since_isOk (t.sub threshold) hreverse with ⟨found, hfound⟩
        refine ⟨found.reverse, ?_⟩
        simp only [eligible, hlast, ht, hfound]
        rfl
  rcases helig with ⟨lines, helig⟩
  rw [count, helig]
  exact ⟨_, rfl⟩

/-- A successful reading is an update, in either way of reading, so what is proved about updates
    holds of both. -/
theorem updated_of_read {r r' : KernelReader} {p : KernelPoll} (h : r.read p = .ok r') :
    ∃ log, p.answer = .ok log ∧ r.Updated log r' := by
  rcases p with ⟨reading, answer⟩
  cases reading with
  | plain =>
    rcases next_eq_ok h with ⟨log, hlog, hwalks, rfl⟩
    exact ⟨log, hlog, updated_accept hwalks⟩
  | counted full threshold =>
    rcases nextCounted_eq_ok h with ⟨r₁, lines, hnext, helig, rfl⟩
    rcases next_eq_ok hnext with ⟨log, hlog, hwalks, rfl⟩
    -- The counts are the only difference, and an empty delta has no line to count.
    have hupdated := updated_accept hwalks
    refine ⟨log, hlog, hupdated.replaceCounts fun hempty d => ?_⟩
    rw [hupdated.delta, Buckets.get_eq_nil (Buckets.isEmpty_iff.mp hempty), eligible_nil,
      Except.ok.injEq] at helig
    rw [← helig]
    exact Counts.get_zeroed _ d

/-- What a walk takes is a probe line of the log, with its time. -/
theorem line_of_mem_taken {r : KernelReader} {log : List String} (hw : r.WalksThrough log)
    {l : TimedLine} (hl : l ∈ (classify r.probes log).flatMap (taken r.watermark)) :
    l.line ∈ log ∧ isProbeLine r.probes l.line = true ∧ time l.line = .ok l.time := by
  rcases List.mem_flatMap.mp hl with ⟨bucket, hbucket, hl⟩
  rcases hw bucket hbucket with ⟨found, hfound⟩
  rw [taken_of_newer hfound] at hl
  have htaken := newer_taken hfound l hl
  have hline := mem_lines_classify
    (Buckets.mem_lines.mpr ⟨bucket, hbucket, List.mem_reverse.mp htaken.1⟩)
  exact ⟨hline.1, hline.2, htaken.2⟩

/-- A new line is a line that a walk took, and its time is above the watermark. -/
theorem taken_of_mem_deltaOf {r : KernelReader} {log : List String} {line : String}
    (h : line ∈ (r.deltaOf log).lines) (hw : r.WalksThrough log) :
    ∃ l ∈ (classify r.probes log).flatMap (taken r.watermark),
      l.line = line ∧ l.time.le r.watermark = false := by
  rcases mem_lines_delta h with h | ⟨bucket, hbucket, h⟩
  · rw [Buckets.lines_empty] at h
    exact absurd h List.not_mem_nil
  · rcases List.mem_map.mp (List.mem_reverse.mp h) with ⟨l, hl, rfl⟩
    rcases hw bucket hbucket with ⟨found, hfound⟩
    have hmem : l ∈ found := taken_of_newer hfound ▸ hl
    exact ⟨l, List.mem_flatMap.mpr ⟨bucket, hbucket, hl⟩, rfl, newer_le hfound l hmem⟩

/-- A reading whose walks succeed is successful, in either way of reading. Counting cannot fail
    afterwards, because a line is published only if a walk has read its time. -/
theorem exists_read {r : KernelReader} {log : List String} (reading : KernelReading)
    (hw : r.WalksThrough log) :
    ∃ r', r.read ⟨reading, .ok log⟩ = .ok r' := by
  cases reading with
  | plain => exact ⟨_, next_of_walks hw⟩
  | counted full threshold =>
    have hdelta := (updated_accept hw).delta
    -- The lines to count are new ones, so a walk has read their times.
    have htimed : ∀ line ∈ (r.accept (r.deltaOf log) (r.newestOf log)).delta.get
        (r.accept (r.deltaOf log) (r.newestOf log)).utilization, ∃ t, time line = .ok t := by
      intro line hline
      rw [hdelta] at hline
      rcases taken_of_mem_deltaOf (Buckets.mem_lines_of_mem_get hline) hw with ⟨l, hl, rfl, _⟩
      exact ⟨l.time, (line_of_mem_taken hw hl).2.2⟩
    rcases count_isOk full threshold htimed with ⟨r', hr'⟩
    refine ⟨r', ?_⟩
    simp only [read, nextCounted, next_of_walks hw]
    exact hr'

/-- The lines that count can be told once a reading has succeeded. -/
theorem exists_eligible {r r' : KernelReader} {answer : Answer}
    (hnext : r.next answer = .ok r') (full : Bool) (threshold : Binary64) :
    ∃ lines, eligible full threshold (r'.delta.get r'.utilization) = .ok lines := by
  -- A walk has read the time of every line that could count.
  rcases next_eq_ok hnext with ⟨log, rfl, hwalks, _⟩
  rcases exists_read (.counted full threshold) hwalks with ⟨counted, hcounted⟩
  simp only [read, nextCounted, hnext, count] at hcounted
  cases helig : eligible full threshold (r'.delta.get r'.utilization) with
  | ok lines => exact ⟨lines, rfl⟩
  | error f =>
    rw [helig] at hcounted
    cases hcounted

/-- Reading with counting fails when reading without does, with its failure. -/
theorem nextCounted_eq_error_iff {r : KernelReader} {answer : Answer} {full : Bool}
    {threshold : Binary64} {f : Failure} :
    r.nextCounted full threshold answer = .error f ↔ r.next answer = .error f := by
  unfold nextCounted
  cases hnext : r.next answer with
  | error g => rfl
  | ok r' =>
    rcases exists_eligible hnext full threshold with ⟨lines, hlines⟩
    simp only [count, hlines, Except.map, reduceCtorEq]

end KernelReader

end AccelMonitor
