import AccelMonitor.Proofs.KernelLog.Watermark

/-!
# Exactly-Once Delivery

What a reader publishes from a log that grows as it should.

The kernel keeps its log in a ring. Between two looks at it new lines are appended
and, when the ring is full, the oldest lines are dropped. As long as the clock moves
on between two looks, a reader turns the looks back into the lines: put one after
the other, the deltas hold every probe line that was appended, once and in order. It
does not matter how the looks are spread, which of them fail and how they are
counted.

The invariant is `CaughtUp`: the watermark is the largest time of all probe lines
seen so far, those that the ring has dropped included. A reader starts with it
although it looks at the last line of each bucket only, because in every bucket the
last line is the newest. A reading keeps it, and as a consequence every walk stops
exactly where the new lines end. Lines of other probes do not get in the way. What
was appended is newer than everything that was seen, of whichever probe.

## Main definitions

* `Look`: A look at the log, from the one fetched before.
* `KernelLog.probeTimes`: The times of the probe lines of a log.
* `KernelLog.Chronological`: The probe lines are in the order of time.
* `KernelLog.NewerThan`: Probe lines are newer than those that were seen.
* `KernelLog.Growing`: Every look finds the log in order, and new lines newer.
* `KernelReader.CaughtUp`: The watermark is the largest time that was seen.

## Theorems

* `caughtUp_start`: A reader starts caught up.
* `CaughtUp.walksThrough`, `CaughtUp.get_deltaOf`: A reading finds what was appended.
* `CaughtUp.updated`: A reading keeps the reader caught up.
* `CaughtUp.look`: What one look does.
* `delivered_batches`: Every delta is what was appended for it.
* `delivered_exactly_once`: All deltas together are what was appended.
-/

namespace AccelMonitor

/-- A look at the log. -/
inductive Look where
  /-- The command failed. -/
  | missed (reading : KernelReading) (failure : SpawnFailure)
  /-- Since the last fetch the oldest lines were dropped and new ones appended. -/
  | fetched (reading : KernelReading) (dropped : Nat) (appended : List String)

namespace Look

/-- The log that was fetched last, after a look. -/
def log (last : List String) : Look → List String
  | missed _ _ => last
  | fetched _ dropped appended => last.drop dropped ++ appended

/-- The lines that a look is the first to fetch. -/
def appended : Look → List String
  | missed _ _ => []
  | fetched _ _ appended => appended

/-- The poll that a look is. -/
def poll (last : List String) : Look → KernelPoll
  | missed reading failure => ⟨reading, .error failure⟩
  | fetched reading dropped appended => ⟨reading, .ok (last.drop dropped ++ appended)⟩

/-- The polls of some looks, the first of them after the log was fetched. -/
def polls (last : List String) : List Look → List KernelPoll
  | [] => []
  | l :: looks => l.poll last :: polls (l.log last) looks

/-- What each look that did not fail was the first to fetch. -/
def batches : List Look → List (List String)
  | [] => []
  | missed _ _ :: looks => batches looks
  | fetched _ _ appended :: looks => appended :: batches looks

/-- The log that was fetched last, after some looks. -/
def lastLog (last : List String) (looks : List Look) : List String :=
  looks.foldl log last

theorem batches_append (looks more : List Look) :
    batches (looks ++ more) = batches looks ++ batches more := by
  induction looks with
  | nil => rfl
  | cons l looks ih =>
    cases l with
    | missed reading failure => exact ih
    | fetched reading dropped appended => exact congrArg (appended :: ·) ih

theorem flatten_batches (looks : List Look) :
    (batches looks).flatten = looks.flatMap appended := by
  induction looks with
  | nil => rfl
  | cons l looks ih =>
    cases l with
    | missed reading failure => exact ih
    | fetched reading dropped lines =>
      rw [batches, List.flatten_cons, List.flatMap_cons, ih]
      rfl

end Look

namespace KernelLog

/-- The times of the probe lines of a log, in its order. -/
def probeTimes (probes : List KernelProbe) (log : List String) : List Binary64 :=
  (log.filter (isProbeLine probes)).filterMap fun line => (time line).toOption

/-- The probe lines of a log have times, and these do not decrease. -/
def Chronological (probes : List KernelProbe) (log : List String) : Prop :=
  (∀ line ∈ log, isProbeLine probes line = true → (time line).isOk = true) ∧
    (probeTimes probes log).Pairwise fun s t => s.le t = true

instance (probes : List KernelProbe) (log : List String) : Decidable (Chronological probes log) :=
  inferInstanceAs (Decidable (_ ∧ _))

/-- The times of the appended probe lines are above zero and above all that were seen. -/
def NewerThan (probes : List KernelProbe) (seen appended : List String) : Prop :=
  ∀ t ∈ probeTimes probes appended, Binary64.zero.lt t = true ∧
    ∀ s ∈ probeTimes probes seen, s.lt t = true

instance (probes : List KernelProbe) (seen appended : List String) :
    Decidable (NewerThan probes seen appended) :=
  inferInstanceAs (Decidable (∀ t ∈ _, _ ∧ ∀ s ∈ _, _))

/-- Every look finds the log in order and appended lines newer than all lines that were seen
    before. A look that fails sees nothing, and what was appended by then is asked of the next
    one. -/
def Growing (probes : List KernelProbe) (seen last : List String) : List Look → Prop
  | [] => True
  | l :: looks =>
    Chronological probes (l.log last) ∧ NewerThan probes seen l.appended ∧
      Growing probes (seen ++ l.appended) (l.log last) looks

instance Growing.decidable (probes : List KernelProbe) (seen last : List String) :
    (looks : List Look) → Decidable (Growing probes seen last looks)
  | [] => inferInstanceAs (Decidable True)
  | l :: looks =>
    have := Growing.decidable probes (seen ++ l.appended) (l.log last) looks
    inferInstanceAs (Decidable (_ ∧ _ ∧ _))

/-- A log that grows through some looks grows through the first of them, and goes on
    growing from there. -/
theorem growing_append {probes : List KernelProbe} {seen last : List String}
    {looks more : List Look} :
    Growing probes seen last (looks ++ more) ↔ Growing probes seen last looks ∧
      Growing probes (seen ++ looks.flatMap Look.appended) (Look.lastLog last looks) more := by
  induction looks generalizing seen last with
  | nil => simp only [List.nil_append, Growing, true_and, List.flatMap_nil, List.append_nil,
      Look.lastLog, List.foldl_nil]
  | cons l looks ih =>
    simp only [List.cons_append, Growing, ih, List.flatMap_cons, List.append_assoc, and_assoc,
      Look.lastLog, List.foldl_cons]

theorem mem_probeTimes {probes : List KernelProbe} {log : List String} {t : Binary64} :
    t ∈ probeTimes probes log ↔
      ∃ line ∈ log, isProbeLine probes line = true ∧ time line = .ok t := by
  have htime : ∀ line, (time line).toOption = some t ↔ time line = .ok t := by
    intro line
    cases time line with
    | error f => simp only [Except.toOption, reduceCtorEq]
    | ok u => simp only [Except.toOption, Option.some.injEq, Except.ok.injEq]
  simp only [probeTimes, List.mem_filterMap, List.mem_filter, htime, and_assoc]

theorem isNumber_of_mem_probeTimes {probes : List KernelProbe} {log : List String} {t : Binary64}
    (h : t ∈ probeTimes probes log) : t.isNumber = true := by
  rcases mem_probeTimes.mp h with ⟨line, _, hprobe, ht⟩
  exact isNumber_of_probe? hprobe ht

theorem isProbeLine_of_probe? {probes : List KernelProbe} {line : String} {p : KernelProbe}
    (h : probe? probes line = some p) : isProbeLine probes line = true := by
  rw [isProbeLine, h]
  rfl

theorem Chronological.exists_time {probes : List KernelProbe} {log : List String}
    (h : Chronological probes log) {line : String} (hline : line ∈ log)
    (hprobe : isProbeLine probes line = true) : ∃ t, time line = .ok t := by
  have hok := h.1 line hline hprobe
  cases ht : time line with
  | error f =>
    rw [ht] at hok
    cases hok
  | ok t => exact ⟨t, rfl⟩

theorem linesOf_sublist (probes : List KernelProbe) (p : KernelProbe) (log : List String) :
    (linesOf probes p log).Sublist (log.filter (isProbeLine probes)) := by
  have hfilter : linesOf probes p log
      = (log.filter (isProbeLine probes)).filter fun line => probe? probes line = some p := by
    rw [linesOf, List.filter_filter]
    refine List.filter_congr fun line _ => ?_
    by_cases h : probe? probes line = some p
    · rw [decide_eq_true h, isProbeLine_of_probe? h]
      rfl
    · rw [decide_eq_false h, Bool.false_and]
  rw [hfilter]
  exact List.filter_sublist

/-- In the order of time, the last line of a probe is the newest one. Lines of other probes may
    stand behind it, but those of one probe are in the order in which they stand in the log. -/
theorem Chronological.le_last {probes : List KernelProbe} {log : List String}
    (h : Chronological probes log) {p : KernelProbe} {line last : String} {s t : Binary64}
    (hline : line ∈ linesOf probes p log) (hlast : (linesOf probes p log).getLast? = some last)
    (hs : time line = .ok s) (ht : time last = .ok t) : s.place ≤ t.place := by
  rcases List.getLast?_eq_some_iff.mp hlast with ⟨front, hfront⟩
  -- The lines of one probe are some of the probe lines, in the same order.
  have hordered := (List.pairwise_filterMap.mp h.2).sublist (linesOf_sublist probes p log)
  have hprobe : ∀ l ∈ linesOf probes p log, isProbeLine probes l = true :=
    fun l hl => isProbeLine_of_probe? (mem_linesOf.mp hl).2
  rw [hfront] at hline hordered hprobe
  rcases List.mem_append.mp hline with hfirst | hsame
  · have hle : s.le t = true := by
      refine (List.pairwise_append.mp hordered).2.2 line hfirst last (List.mem_singleton_self _)
        s ?_ t ?_
      · rw [hs]
        rfl
      · rw [ht]
        rfl
    have hsn : s.isNumber = true := isNumber_of_probe? (hprobe line hline) hs
    have htn : t.isNumber = true := isNumber_of_probe?
      (hprobe last (List.mem_append_right front (List.mem_singleton_self _))) ht
    exact (Binary64.le_iff hsn htn).mp hle
  · rw [List.mem_singleton.mp hsame, ht, Except.ok.injEq] at hs
    exact Int.le_of_eq (congrArg Binary64.place hs.symm)

end KernelLog

namespace KernelReader

open KernelLog

/-- The watermark is the largest time of all probe lines that were seen, and the log that was
    fetched last has been seen. One watermark serves all probes, so it says of each of them that
    nothing above it was seen, but not where its own last line is. -/
structure CaughtUp (r : KernelReader) (seen last : List String) : Prop where
  distinct : r.probes.Nodup
  within : ∀ line ∈ last, line ∈ seen
  peak : Peak .zero (probeTimes r.probes seen) r.watermark

/-- The last line of a bucket is a line of its probe. -/
theorem mem_of_getLast?_classify {probes : List KernelProbe} {log : List String} {bucket : Bucket}
    (hbucket : bucket ∈ classify probes log) {line : String}
    (hlast : bucket.lines.getLast? = some line) :
    line ∈ log ∧ isProbeLine probes line = true :=
  mem_lines_classify (Buckets.mem_lines.mpr ⟨bucket, hbucket, List.mem_of_getLast? hlast⟩)

/-- A reader that starts on a log in the order of time is caught up with it. It looks at the
    last line of each bucket only. Where the lines of a probe are in order this is the newest of
    them, so the watermark is not below any time in the log. -/
theorem caughtUp_start {probes : List KernelProbe} (hprobes : probes.Nodup)
    (utilization : KernelProbe) {log : List String} (hlog : Chronological probes log) :
    ∃ r, start probes utilization (.ok log) = .ok r ∧ r.probes = probes ∧ r.CaughtUp log log := by
  -- The newest of the last lines is the starting watermark.
  have htop : lastTime .zero (classify probes log)
      = .ok ((lastTimes (classify probes log)).foldl Binary64.larger .zero) := by
    refine lastTime_eq_ok.mpr ⟨fun bucket hbucket line hlast => ?_, rfl⟩
    have hline := mem_of_getLast?_classify hbucket hlast
    exact hlog.exists_time hline.1 hline.2
  have hpeak : Peak .zero (lastTimes (classify probes log))
      ((lastTimes (classify probes log)).foldl Binary64.larger .zero) :=
    Peak.foldl_larger rfl fun t ht => isNumber_of_mem_lastTimes ht
  rw [start]
  simp only [htop]
  refine ⟨_, rfl, rfl, hprobes, fun line hline => hline, hpeak.isNumber, hpeak.base_le, ?_, ?_⟩
  · intro t ht
    rcases mem_probeTimes.mp ht with ⟨line, hline, hprobe, htime⟩
    rcases Option.isSome_iff_exists.mp hprobe with ⟨p, hp⟩
    -- The line is in the bucket of its probe, and the last one there is at least as new.
    have hconfigured : p ∈ (classify probes log).probes := by
      rw [probes_classify]
      exact probe?_mem hp
    rcases Buckets.exists_bucket hconfigured with ⟨bucket, hbucket, _, hlines⟩
    rw [get_classify] at hlines
    have hmem : line ∈ linesOf probes p log := mem_linesOf.mpr ⟨hline, hp⟩
    cases hlast : (linesOf probes p log).getLast? with
    | none =>
      rw [List.getLast?_eq_none_iff.mp hlast] at hmem
      exact absurd hmem List.not_mem_nil
    | some last =>
      have hin := mem_of_getLast?_classify hbucket (hlines ▸ hlast)
      rcases hlog.exists_time hin.1 hin.2 with ⟨u, hu⟩
      have hle := hlog.le_last hmem hlast htime hu
      have htop := hpeak.le u (mem_lastTimes.mpr ⟨bucket, hbucket, last, hlines ▸ hlast, hu⟩)
      exact Int.le_trans hle htop
  · rcases hpeak.attained with heq | ⟨t, ht, heq⟩
    · exact Or.inl heq
    · rcases mem_lastTimes.mp ht with ⟨bucket, hbucket, line, hlast, htime⟩
      have hline := mem_of_getLast?_classify hbucket hlast
      exact Or.inr ⟨t, mem_probeTimes.mpr ⟨line, hline.1, hline.2, htime⟩, heq⟩

namespace CaughtUp

variable {r : KernelReader} {seen last old appended : List String}

/-- What is newer than all that was seen is above the watermark. -/
theorem above (h : r.CaughtUp seen last) (hnew : NewerThan r.probes seen appended) {t : Binary64}
    (ht : t ∈ probeTimes r.probes appended) : t.le r.watermark = false := by
  have htn := isNumber_of_mem_probeTimes ht
  rw [Binary64.le_eq_false_iff htn h.peak.isNumber]
  rcases h.peak.attained with heq | ⟨s, hs, heq⟩
  · rw [heq]
    exact (Binary64.lt_iff rfl htn).mp (hnew t ht).1
  · rw [← heq]
    exact (Binary64.lt_iff (isNumber_of_mem_probeTimes hs) htn).mp ((hnew t ht).2 s hs)

/-- The walk through a bucket takes exactly the new lines of its probe. It goes backwards and
    stops at the first line that is not above the watermark. Everything that was appended is
    above, since it is newer than all that was seen, and everything that was seen is not. -/
theorem newer_bucket (h : r.CaughtUp seen last) (hold : ∀ line ∈ old, line ∈ seen)
    (hlog : Chronological r.probes (old ++ appended)) (hnew : NewerThan r.probes seen appended)
    {bucket : Bucket} (hbucket : bucket ∈ classify r.probes (old ++ appended)) :
    ∃ found, newer r.watermark bucket.lines.reverse = .ok found ∧
      found.map TimedLine.line = (linesOf r.probes bucket.probe appended).reverse := by
  -- The lines of a bucket are those of its probe, first the old ones.
  have hlines : bucket.lines
      = linesOf r.probes bucket.probe old ++ linesOf r.probes bucket.probe appended := by
    have hnodup : (classify r.probes (old ++ appended)).probes.Nodup := by
      rw [probes_classify]
      exact h.distinct
    rw [← Buckets.get_eq_lines hnodup hbucket, get_classify, linesOf_append]
  -- Backwards, the walk meets what was appended before it meets what was seen.
  rw [hlines, List.reverse_append]
  refine newer_append ?_ ?_
  · intro line hline
    have hmem := mem_linesOf.mp (List.mem_reverse.mp hline)
    have hprobe := isProbeLine_of_probe? hmem.2
    rcases hlog.exists_time (List.mem_append_right old hmem.1) hprobe with ⟨t, ht⟩
    exact ⟨t, ht, h.above hnew (mem_probeTimes.mpr ⟨line, hmem.1, hprobe, ht⟩)⟩
  · -- The newest line that was seen is not above the watermark and ends the walk.
    cases hreverse : (linesOf r.probes bucket.probe old).reverse with
    | nil => rfl
    | cons line older =>
      have hline : line ∈ linesOf r.probes bucket.probe old := by
        rw [← List.mem_reverse, hreverse]
        exact List.mem_cons_self ..
      have hmem := mem_linesOf.mp hline
      have hprobe := isProbeLine_of_probe? hmem.2
      rcases hlog.exists_time (List.mem_append_left appended hmem.1) hprobe with ⟨t, ht⟩
      have hseen : t ∈ probeTimes r.probes seen :=
        mem_probeTimes.mpr ⟨line, hold line hmem.1, hprobe, ht⟩
      refine newer_seen ht ?_ older
      rw [Binary64.le_iff (isNumber_of_mem_probeTimes hseen) h.peak.isNumber]
      exact h.peak.le t hseen

theorem walksThrough (h : r.CaughtUp seen last) (hold : ∀ line ∈ old, line ∈ seen)
    (hlog : Chronological r.probes (old ++ appended)) (hnew : NewerThan r.probes seen appended) :
    r.WalksThrough (old ++ appended) := by
  intro bucket hbucket
  rcases h.newer_bucket hold hlog hnew hbucket with ⟨found, hfound, _⟩
  exact ⟨found, hfound⟩

/-- The new lines of a probe are those that were appended. The walk goes back from the newest line
    to the first one that is not newer than the watermark; since all that was seen is not newer
    and all that was appended is, it stops exactly at the seam. -/
theorem get_deltaOf (h : r.CaughtUp seen last) (hold : ∀ line ∈ old, line ∈ seen)
    (hlog : Chronological r.probes (old ++ appended)) (hnew : NewerThan r.probes seen appended)
    (p : KernelProbe) : (r.deltaOf (old ++ appended)).get p = linesOf r.probes p appended := by
  have hprobes := probes_classify r.probes (old ++ appended)
  by_cases hp : p ∈ r.probes
  · rw [← hprobes] at hp
    rcases Buckets.exists_bucket hp with ⟨bucket, hbucket, rfl, _⟩
    rcases h.newer_bucket hold hlog hnew hbucket with ⟨found, hfound, hlines⟩
    have hnodup : (classify r.probes (old ++ appended)).probes.Nodup := by
      rw [hprobes]
      exact h.distinct
    have hsame : ∀ q ∈ (classify r.probes (old ++ appended)).probes,
        q ∈ (Buckets.empty r.probes).probes := by
      intro q hq
      rw [hprobes] at hq
      rw [Buckets.probes_empty]
      exact hq
    -- Probes are distinct, so what this walk took is not put elsewhere.
    rw [deltaOf, get_delta hnodup hsame hbucket, kept, taken_of_newer hfound, hlines,
      List.reverse_reverse]
  · -- A probe that is not configured has no lines.
    have hnone : linesOf r.probes p appended = [] := by
      rw [List.eq_nil_iff_forall_not_mem]
      exact fun line hline => hp (probe?_mem (mem_linesOf.mp hline).2)
    rw [← hprobes] at hp
    rw [hnone, deltaOf, get_delta_of_not_mem hp]
    exact Buckets.get_eq_nil (Buckets.lines_empty _) p

/-- A reading keeps the reader caught up. The new watermark bounds what was seen before, as it
    has not fallen, and what was appended, as all of that is in the delta. It is attained as
    well: it is the old one, or the time of a line that this reading took. -/
theorem updated {r' : KernelReader} (h : r.CaughtUp seen last) (hold : ∀ line ∈ old, line ∈ seen)
    (hlog : Chronological r.probes (old ++ appended)) (hnew : NewerThan r.probes seen appended)
    (hr : r.Updated (old ++ appended) r') :
    r'.CaughtUp (seen ++ appended) (old ++ appended) := by
  have hn := h.peak.isNumber
  have hrise := hr.place_le hn
  -- What the ring has kept was seen before.
  have hwithin : ∀ line ∈ old ++ appended, line ∈ seen ++ appended := by
    intro line hline
    rcases List.mem_append.mp hline with hline | hline
    · exact List.mem_append_left appended (hold line hline)
    · exact List.mem_append_right seen hline
  refine ⟨hr.probes ▸ h.distinct, hwithin, hr.isNumber hn, ?_, ?_, ?_⟩
  · have hbase := h.peak.base_le
    omega
  · -- What was seen is below the old watermark, what was appended is in the delta.
    intro t ht
    rw [hr.probes] at ht
    rcases mem_probeTimes.mp ht with ⟨line, hline, hprobe, htime⟩
    rcases List.mem_append.mp hline with hline | hline
    · have hle := h.peak.le t (mem_probeTimes.mpr ⟨line, hline, hprobe, htime⟩)
      omega
    · rcases Option.isSome_iff_exists.mp hprobe with ⟨p, hp⟩
      have hdelta : line ∈ r'.delta.get p := by
        rw [hr.delta, h.get_deltaOf hold hlog hnew]
        exact mem_linesOf.mpr ⟨hline, hp⟩
      rcases hr.time_of_mem hn (Buckets.mem_lines_of_mem_get hdelta) with ⟨u, hu, _, _, hle⟩
      rw [htime, Except.ok.injEq] at hu
      rw [hu]
      exact hle
  · rw [hr.probes]
    -- The watermark has stayed, or moved to the time of a line of this log.
    rcases hr.attained hn with heq | ⟨line, hline, hprobe, t, htime, heq⟩
    · rcases h.peak.attained with hbase | ⟨s, hs, hsame⟩
      · exact Or.inl (heq.trans hbase)
      · rcases mem_probeTimes.mp hs with ⟨line, hline, hprobe, htime⟩
        refine Or.inr ⟨s, mem_probeTimes.mpr ⟨line, ?_, hprobe, htime⟩, hsame.trans heq.symm⟩
        exact List.mem_append_left appended hline
    · exact Or.inr ⟨t, mem_probeTimes.mpr ⟨line, hwithin line hline, hprobe, htime⟩, heq⟩

/-- What one look does: it fails and changes nothing, or it publishes what was appended. After a
    failed look the reader is caught up with the log from before it, so the lines that were
    appended in between are still new to the next one, and none is lost. -/
theorem look (h : r.CaughtUp seen last) {l : Look} (hlog : Chronological r.probes (l.log last))
    (hnew : NewerThan r.probes seen l.appended) :
    (r.poll (l.poll last)).CaughtUp (seen ++ l.appended) (l.log last) ∧
      (r.poll (l.poll last)).probes = r.probes ∧
      (r.publication (l.poll last)).map (fun s p => s.delta.get p)
        = (Look.batches [l]).map fun batch p => linesOf r.probes p batch := by
  cases l with
  | missed reading failure =>
    -- Without an answer either way of reading fails.
    have hread : ∃ f, r.read ((Look.missed reading failure).poll last) = .error f := by
      cases reading with
      | plain => exact ⟨_, rfl⟩
      | counted full threshold => exact ⟨_, rfl⟩
    rcases hread with ⟨f, hread⟩
    rw [poll, publication, hread, after_error]
    refine ⟨?_, rfl, rfl⟩
    rw [Look.appended, List.append_nil]
    exact h
  | fetched reading dropped appended =>
    -- What is left of the last log was seen, whatever the ring has dropped.
    have hold : ∀ line ∈ last.drop dropped, line ∈ seen :=
      fun line hline => h.within line (List.mem_of_mem_drop hline)
    rcases exists_read reading (h.walksThrough hold hlog hnew) with ⟨r', hread⟩
    rcases updated_of_read hread with ⟨log, hanswer, hr⟩
    rw [Except.ok.injEq] at hanswer
    subst hanswer
    have hpoll : r.poll ((Look.fetched reading dropped appended).poll last) = r' := by
      rw [poll, Look.poll, hread]
      rfl
    rw [hpoll, publication, Look.poll, hread]
    refine ⟨h.updated hold hlog hnew hr, hr.probes, ?_⟩
    simp only [List.map_cons, List.map_nil, Look.batches, published, hr.delta,
      h.get_deltaOf hold hlog hnew]

end CaughtUp

/-- Every poll that did not fail publishes what was appended for it, one batch after the other. -/
theorem delivered_batches {r : KernelReader} {seen last : List String} {looks : List Look}
    (h : r.CaughtUp seen last) (hlooks : Growing r.probes seen last looks) :
    (r.publications (Look.polls last looks)).map (fun s p => s.delta.get p)
      = (Look.batches looks).map fun batch p => linesOf r.probes p batch := by
  -- By induction on the looks, from any reader that is caught up.
  induction looks generalizing r seen last with
  | nil => rfl
  | cons l looks ih =>
    rcases hlooks with ⟨hlog, hnew, hrest⟩
    rcases h.look hlog hnew with ⟨hnext, hprobes, hpublished⟩
    rw [← hprobes] at hrest
    rw [Look.polls, publications, List.map_append, hpublished, ih hnext hrest, hprobes,
      ← List.map_append]
    cases l with
    | missed reading failure => rfl
    | fetched reading dropped appended => rfl

/-- From a log that grows as it should, a reader publishes every probe line that was
    appended exactly once and in order. Each look that did not fail publishes one delta,
    and for every probe the deltas together are the lines of that probe among those that
    were appended and fetched, however the looks are spread and whichever fail. -/
theorem delivered_exactly_once {probes : List KernelProbe} (hprobes : probes.Nodup)
    (utilization : KernelProbe) {log : List String} (hlog : Chronological probes log)
    {looks : List Look} (hlooks : Growing probes log log looks) :
    ∃ r, start probes utilization (.ok log) = .ok r ∧
      (r.publications (Look.polls log looks)).length = (Look.batches looks).length ∧
      ∀ p, (r.publications (Look.polls log looks)).flatMap (fun s => s.delta.get p)
        = linesOf probes p (looks.flatMap Look.appended) := by
  rcases caughtUp_start hprobes utilization hlog with ⟨r, hstart, rfl, hr⟩
  have hbatches := delivered_batches hr hlooks
  refine ⟨r, hstart, ?_, fun p => ?_⟩
  · have hlength := congrArg List.length hbatches
    rw [List.length_map, List.length_map] at hlength
    exact hlength
  · -- Delta by delta becomes all deltas together.
    have hp := congrArg (List.flatMap fun lines => lines p) hbatches
    rw [List.flatMap_map, List.flatMap_map] at hp
    rw [hp, ← Look.flatten_batches, linesOf_flatten]

/-- The case of a ring that drops lines, a look that fails, and two lines of one time. -/
theorem delivered_exactly_once_ring :
    ∃ r, start KernelProbe.all .ioctl
        (.ok ["[1.0] IOCTL kgsl: a", "[1.5] usb 1-1", "[2.0] TIME dsp: b"]) = .ok r ∧
      (r.publications (Look.polls ["[1.0] IOCTL kgsl: a", "[1.5] usb 1-1", "[2.0] TIME dsp: b"]
        [.fetched .plain 2 ["[3.0] INFO: c", "[3.0] IOCTL kgsl: d"],
          .missed (.counted true .zero) ⟨"dmesg", "gone"⟩,
          .fetched (.counted false .zero) 1 ["[4.5] IOCTL kgsl: e"],
          .fetched .plain 0 []])).flatMap (fun s => s.delta.get .ioctl)
        = ["[3.0] IOCTL kgsl: d", "[4.5] IOCTL kgsl: e"] := by
  have hdistinct : KernelProbe.all.Nodup := by
    decide
  have hlog : Chronological KernelProbe.all
      ["[1.0] IOCTL kgsl: a", "[1.5] usb 1-1", "[2.0] TIME dsp: b"] := by
    decide +kernel
  have hlooks : Growing KernelProbe.all
      ["[1.0] IOCTL kgsl: a", "[1.5] usb 1-1", "[2.0] TIME dsp: b"]
      ["[1.0] IOCTL kgsl: a", "[1.5] usb 1-1", "[2.0] TIME dsp: b"]
      [.fetched .plain 2 ["[3.0] INFO: c", "[3.0] IOCTL kgsl: d"],
        .missed (.counted true .zero) ⟨"dmesg", "gone"⟩,
        .fetched (.counted false .zero) 1 ["[4.5] IOCTL kgsl: e"], .fetched .plain 0 []] := by
    decide +kernel
  -- The theorem gives the lines that were appended, and those are computed.
  rcases delivered_exactly_once hdistinct .ioctl hlog hlooks with ⟨r, hstart, _, h⟩
  refine ⟨r, hstart, (h .ioctl).trans ?_⟩
  decide +kernel

end KernelReader

end AccelMonitor
