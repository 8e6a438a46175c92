import AccelMonitor.Proofs.KernelLog.Reading

/-!
# The Watermark on Any Log

What holds of a reader whatever the command prints.

A kernel log is expected to be in the order of time, but nothing enforces it. The
log can be cleared, the clock can start over, lines can come out of order, and
polls can fail. What a reader does is then no longer to find everything that is
new. But it never goes back: the watermark only rises, every line that a poll
publishes lies above the watermark from before the poll and at or below the one
after it, and so nothing is published twice.

The one invariant behind all of it is that the watermark is a number. It is the
only thing that the order of the lines cannot spoil, and without it a comparison
with the watermark would be false both ways. It holds at the start and is kept by
every poll because the time of a probe line is a number.

That a second reading of the same log finds nothing needs no more. In every bucket
the newest line was either taken before, and then the new watermark is above it,
or it already ended the walk.

## Theorems

* `isNumber_start`: A reader starts with a number.
* `newestOf_peak`: The newest time is the largest that was taken.
* `Updated.isNumber`, `Updated.place_le`: An update keeps the watermark a number
  and does not lower it.
* `Updated.time_of_mem`: Where the times of a delta lie.
* `isNumber_run`: The watermark is a number after any run.
* `published_above`: What a run publishes lies above where it began.
* `published_ascending`: Later publications lie above earlier ones.
* `reread_finds_nothing`: Reading the same log again finds nothing.
* `watermark_safe`: All of this, for every run.
-/

namespace AccelMonitor

namespace KernelReader

open KernelLog

/-- The times of the last lines of a sorted log are numbers. -/
theorem isNumber_of_mem_lastTimes {probes : List KernelProbe} {log : List String} {t : Binary64}
    (h : t ∈ lastTimes (classify probes log)) : t.isNumber = true := by
  rcases mem_lastTimes.mp h with ⟨bucket, hbucket, line, hlast, ht⟩
  have hline := Buckets.mem_lines.mpr ⟨bucket, hbucket, List.mem_of_getLast? hlast⟩
  exact isNumber_of_probe? (mem_lines_classify hline).2 ht

/-- What a reader starts with: its watermark is the newest time among the last lines of the
    probes. -/
theorem start_eq_ok {probes : List KernelProbe} {utilization : KernelProbe} {answer : Answer}
    {r : KernelReader} (h : start probes utilization answer = .ok r) :
    ∃ log, answer = .ok log ∧ r.probes = probes ∧
      lastTime .zero (classify probes log) = .ok r.watermark := by
  cases answer with
  | error f => cases h
  | ok log =>
    rw [start] at h
    cases htop : lastTime .zero (classify probes log) with
    | error f =>
      rw [htop] at h
      cases h
    | ok top =>
      rw [htop] at h
      rw [← Except.ok.inj h]
      exact ⟨log, rfl, rfl, htop⟩

theorem isNumber_start {probes : List KernelProbe} {utilization : KernelProbe} {answer : Answer}
    {r : KernelReader} (h : start probes utilization answer = .ok r) :
    r.watermark.isNumber = true := by
  rcases start_eq_ok h with ⟨log, _, _, htop⟩
  rw [(lastTime_eq_ok.mp htop).2]
  exact (Peak.foldl_larger rfl fun t ht => isNumber_of_mem_lastTimes ht).isNumber

/-- The newest time of a log is the largest of those that the walks took. -/
theorem newestOf_peak {r : KernelReader} {log : List String} (hr : r.watermark.isNumber = true)
    (hw : r.WalksThrough log) :
    Peak r.watermark (((classify r.probes log).flatMap (taken r.watermark)).map TimedLine.time)
      (r.newestOf log) := by
  rw [newestOf, newest_eq]
  refine Peak.foldl_larger hr fun t ht => ?_
  rcases List.mem_map.mp ht with ⟨l, hl, rfl⟩
  have hline := line_of_mem_taken hw hl
  exact isNumber_of_probe? hline.2.1 hline.2.2

namespace Updated

variable {r r' : KernelReader} {log : List String}

theorem isNumber (h : r.Updated log r') (hr : r.watermark.isNumber = true) :
    r'.watermark.isNumber = true := by
  rw [h.watermark]
  split
  · exact hr
  · exact (newestOf_peak hr h.walks).isNumber

theorem place_le (h : r.Updated log r') (hr : r.watermark.isNumber = true) :
    r.watermark.place ≤ r'.watermark.place := by
  rw [h.watermark]
  split
  · exact Int.le_refl _
  · exact (newestOf_peak hr h.walks).base_le

/-- The times of a delta lie above the watermark from before the reading and at or below
    the one after it. -/
theorem time_of_mem (h : r.Updated log r') (hr : r.watermark.isNumber = true) {line : String}
    (hline : line ∈ r'.delta.lines) :
    ∃ t, time line = .ok t ∧ t.isNumber = true ∧
      r.watermark.place < t.place ∧ t.place ≤ r'.watermark.place := by
  rw [h.delta] at hline
  rcases taken_of_mem_deltaOf hline h.walks with ⟨l, hl, rfl, habove⟩
  have htaken := line_of_mem_taken h.walks hl
  have hnumber : l.time.isNumber = true := isNumber_of_probe? htaken.2.1 htaken.2.2
  refine ⟨l.time, htaken.2.2, hnumber, (Binary64.le_eq_false_iff hnumber hr).mp habove, ?_⟩
  -- The delta holds this line, so the watermark has moved to the newest time.
  have hsome : ¬ (r.deltaOf log).isEmpty = true := by
    intro hempty
    rw [Buckets.isEmpty_iff.mp hempty] at hline
    exact absurd hline List.not_mem_nil
  rw [h.watermark, if_neg hsome]
  exact (newestOf_peak hr h.walks).le l.time (List.mem_map_of_mem hl)

/-- The watermark stays or is the time of a probe line of the log. -/
theorem attained (h : r.Updated log r') (hr : r.watermark.isNumber = true) :
    r'.watermark.place = r.watermark.place ∨
      ∃ line ∈ log, isProbeLine r.probes line = true ∧
        ∃ t, time line = .ok t ∧ t.place = r'.watermark.place := by
  rw [h.watermark]
  split
  · exact Or.inl rfl
  · rcases (newestOf_peak hr h.walks).attained with heq | ⟨t, ht, heq⟩
    · exact Or.inl heq
    · rcases List.mem_map.mp ht with ⟨l, hl, rfl⟩
      have hline := line_of_mem_taken h.walks hl
      exact Or.inr ⟨l.line, hline.1, hline.2.1, l.time, hline.2.2, heq⟩

theorem fresh_iff (h : r.Updated log r') : r'.fresh = true ↔ r'.delta.lines ≠ [] := by
  rw [h.fresh, h.delta, Bool.not_eq_true', ← Bool.not_eq_true, Buckets.isEmpty_iff]

/-- A reading that finds nothing moves nothing and counts nothing. -/
theorem stale (h : r.Updated log r') (hfresh : r'.fresh = false) :
    r'.watermark = r.watermark ∧ ∀ d, r'.counts.get d = 0 := by
  have hempty : (r.deltaOf log).isEmpty = true := by
    rw [h.fresh, Bool.not_eq_false'] at hfresh
    exact hfresh
  refine ⟨?_, h.counts hempty⟩
  rw [h.watermark, if_pos hempty]

end Updated

/-- A poll either changes nothing and publishes nothing, or it is an update and publishes
    the reader it leads to. -/
theorem poll_cases (r : KernelReader) (p : KernelPoll) :
    (r.poll p = r ∧ r.publication p = []) ∨
      ∃ log, p.answer = .ok log ∧ r.read p = .ok (r.poll p) ∧ r.Updated log (r.poll p) ∧
        r.publication p = [(r.poll p).published] := by
  cases hread : r.read p with
  | error f =>
    refine Or.inl ⟨?_, ?_⟩
    · rw [poll, hread]
      exact after_error r f
    · rw [publication, hread]
  | ok r' =>
    have hpoll : r.poll p = r' := by
      rw [poll, hread]
      rfl
    rcases updated_of_read hread with ⟨log, hlog, hupdated⟩
    refine Or.inr ⟨log, hlog, ?_, ?_, ?_⟩
    · rw [hpoll]
    · rw [hpoll]
      exact hupdated
    · rw [publication, hread, hpoll]

theorem isNumber_poll {r : KernelReader} (p : KernelPoll) (hr : r.watermark.isNumber = true) :
    (r.poll p).watermark.isNumber = true := by
  rcases poll_cases r p with ⟨hpoll, _⟩ | ⟨log, _, _, hupdated, _⟩
  · rw [hpoll]
    exact hr
  · exact hupdated.isNumber hr

theorem place_le_poll {r : KernelReader} (p : KernelPoll) (hr : r.watermark.isNumber = true) :
    r.watermark.place ≤ (r.poll p).watermark.place := by
  rcases poll_cases r p with ⟨hpoll, _⟩ | ⟨log, _, _, hupdated, _⟩
  · exact Int.le_of_eq (congrArg (fun r => r.watermark.place) hpoll.symm)
  · exact hupdated.place_le hr

/-- The watermark is a number after any run. -/
theorem isNumber_run {r : KernelReader} (polls : List KernelPoll)
    (hr : r.watermark.isNumber = true) : (r.run polls).watermark.isNumber = true := by
  induction polls generalizing r with
  | nil => exact hr
  | cons p polls ih => exact ih (isNumber_poll p hr)

/-- What a run publishes lies above the watermark that it began with. A poll publishes lines above
    the watermark that it finds, and no poll lowers the watermark. -/
theorem published_above {r : KernelReader} {polls : List KernelPoll}
    (hr : r.watermark.isNumber = true) :
    ∀ s ∈ r.publications polls, ∀ line ∈ s.delta.lines,
      ∃ t, time line = .ok t ∧ t.isNumber = true ∧ r.watermark.place < t.place := by
  -- By induction on the polls: later publications lie above a watermark that has not fallen.
  induction polls generalizing r with
  | nil => exact List.forall_mem_nil _
  | cons p polls ih =>
    intro s hs line hline
    rcases List.mem_append.mp hs with hs | hs
    · rcases poll_cases r p with ⟨_, hnone⟩ | ⟨log, _, _, hupdated, hone⟩
      · rw [hnone] at hs
        exact absurd hs List.not_mem_nil
      · rw [hone, List.mem_singleton] at hs
        rw [hs] at hline
        rcases hupdated.time_of_mem hr hline with ⟨t, ht, hnumber, hlt, _⟩
        exact ⟨t, ht, hnumber, hlt⟩
    · rcases ih (isNumber_poll p hr) s hs line hline with ⟨t, ht, hnumber, hlt⟩
      have hle := place_le_poll p hr
      exact ⟨t, ht, hnumber, by omega⟩

/-- The times of some lines lie strictly below those of others. -/
def StrictlyBelow (earlier later : List String) : Prop :=
  ∀ a ∈ earlier, ∀ b ∈ later, ∃ s t, time a = .ok s ∧ time b = .ok t ∧ s.lt t = true

/-- Lines strictly below others are different from them, because a line has one time. -/
theorem StrictlyBelow.ne {earlier later : List String} (h : StrictlyBelow earlier later)
    {a b : String} (ha : a ∈ earlier) (hb : b ∈ later) : a ≠ b := by
  rintro rfl
  rcases h a ha a hb with ⟨s, t, hs, ht, hlt⟩
  rw [hs, Except.ok.injEq] at ht
  rw [ht] at hlt
  cases t with
  | nan => exact absurd hlt Bool.false_ne_true
  | number sign m =>
    rw [Binary64.lt_iff rfl rfl] at hlt
    exact absurd hlt (Int.lt_irrefl _)

/-- What a run publishes later lies strictly above what it published before: the watermark that a
    poll leaves is not below any line that it published, and the later ones lie above it. -/
theorem published_ascending {r : KernelReader} {polls : List KernelPoll}
    (hr : r.watermark.isNumber = true) :
    (r.publications polls).Pairwise fun earlier later =>
      StrictlyBelow earlier.delta.lines later.delta.lines := by
  induction polls generalizing r with
  | nil => exact List.Pairwise.nil
  | cons p polls ih =>
    have hrest := ih (isNumber_poll p hr)
    rw [publications]
    rcases poll_cases r p with ⟨_, hnone⟩ | ⟨log, _, _, hupdated, hone⟩
    · rw [hnone]
      exact hrest
    · rw [hone, List.singleton_append, List.pairwise_cons]
      refine ⟨?_, hrest⟩
      -- The watermark between the two publications separates them.
      intro later hlater a ha b hb
      rcases hupdated.time_of_mem hr ha with ⟨s, hs, hsn, _, hle⟩
      rcases published_above (isNumber_poll p hr) later hlater b hb with ⟨t, ht, htn, hlt⟩
      exact ⟨s, t, hs, ht, (Binary64.lt_iff hsn htn).mpr (by omega)⟩

/-- Where every walk ends at once, a reading finds nothing. -/
theorem deltaOf_of_walks_nil {r : KernelReader} {log : List String}
    (h : ∀ bucket ∈ classify r.probes log, newer r.watermark bucket.lines.reverse = .ok []) :
    (r.deltaOf log).isEmpty = true := by
  rw [Buckets.isEmpty_iff, List.eq_nil_iff_forall_not_mem]
  intro line hline
  rcases mem_lines_delta hline with hline | ⟨bucket, hbucket, hline⟩
  · rw [Buckets.lines_empty] at hline
    exact absurd hline List.not_mem_nil
  · rw [kept, taken_of_newer (h bucket hbucket)] at hline
    exact absurd hline List.not_mem_nil

/-- After a reading that found something, every walk through the same log ends at once:
    the newest line of a bucket was taken, or it was below the old watermark already. -/
theorem Updated.walks_nil {r r' : KernelReader} {log : List String} (h : r.Updated log r')
    (hr : r.watermark.isNumber = true) (hsome : ¬ (r.deltaOf log).isEmpty = true) :
    ∀ bucket ∈ classify r'.probes log, newer r'.watermark bucket.lines.reverse = .ok [] := by
  intro bucket hbucket
  rw [h.probes] at hbucket
  rcases h.walks bucket hbucket with ⟨found, hfound⟩
  cases hlines : bucket.lines.reverse with
  | nil => rfl
  | cons line older =>
    rw [hlines] at hfound
    rcases newer_cons hfound with ⟨t, ht, hstep⟩
    have hmem : line ∈ bucket.lines := by
      rw [← List.mem_reverse, hlines]
      exact List.mem_cons_self ..
    have hprobe := (mem_lines_classify (Buckets.mem_lines.mpr ⟨bucket, hbucket, hmem⟩)).2
    have hnumber : t.isNumber = true := isNumber_of_probe? hprobe ht
    refine newer_seen ht ?_ older
    rw [Binary64.le_iff hnumber (h.isNumber hr)]
    -- Not taken, the line was low already. Taken, it is no newer than the newest.
    rcases hstep with ⟨hle, _⟩ | ⟨_, rest, _, rfl⟩
    · have hrise := h.place_le hr
      rw [Binary64.le_iff hnumber hr] at hle
      omega
    · have htaken : taken r.watermark bucket = ⟨t, line⟩ :: rest := by
        refine taken_of_newer ?_
        rw [hlines]
        exact hfound
      have hl : (⟨t, line⟩ : TimedLine) ∈ (classify r.probes log).flatMap (taken r.watermark) := by
        refine List.mem_flatMap.mpr ⟨bucket, hbucket, ?_⟩
        rw [htaken]
        exact List.mem_cons_self ..
      rw [h.watermark, if_neg hsome]
      exact (newestOf_peak hr h.walks).le t (List.mem_map_of_mem hl)

/-- Reading the same log again succeeds, in either way of reading, and finds nothing. If the first
    reading found something, the watermark is at the newest last line and every walk ends at once;
    if not, the reader is as it was and the second reading is the first. -/
theorem reread_finds_nothing {r r' : KernelReader} {log : List String} (h : r.Updated log r')
    (hr : r.watermark.isNumber = true) (reading : KernelReading) :
    ∃ r'', r'.read ⟨reading, .ok log⟩ = .ok r'' ∧ r''.delta.lines = [] ∧ r''.fresh = false ∧
      r''.watermark = r'.watermark := by
  have hagain : r'.WalksThrough log ∧ (r'.deltaOf log).isEmpty = true := by
    by_cases hempty : (r.deltaOf log).isEmpty = true
    · -- Nothing has moved, so the second reading repeats the first.
      have hwatermark : r'.watermark = r.watermark := by
        rw [h.watermark, if_pos hempty]
      refine ⟨?_, ?_⟩
      · rw [WalksThrough, h.probes, hwatermark]
        exact h.walks
      · rw [deltaOf, h.probes, hwatermark]
        exact hempty
    · -- The watermark has moved, so every walk ends at its first line.
      have hnil := h.walks_nil hr hempty
      exact ⟨fun bucket hbucket => ⟨[], hnil bucket hbucket⟩, deltaOf_of_walks_nil hnil⟩
  rcases exists_read reading hagain.1 with ⟨r'', hread⟩
  rcases updated_of_read hread with ⟨log', hlog, hupdated⟩
  rw [Except.ok.injEq] at hlog
  subst hlog
  refine ⟨r'', hread, ?_, ?_, ?_⟩
  · rw [hupdated.delta]
    exact Buckets.isEmpty_iff.mp hagain.2
  · rw [hupdated.fresh, hagain.2]
    rfl
  · rw [hupdated.watermark, if_pos hagain.2]

/-- A reader never goes back, whatever logs it is given and whichever polls fail. After
    any run, and for the next poll:

    * what was published later lies strictly above what was published earlier, and no
      line was published twice;
    * the watermark does not fall;
    * what a successful poll publishes lies above the watermark from before it and at or
      below the one after it, and is fresh exactly when there is any;
    * a successful poll that is not fresh leaves the watermark and has all counts at zero;
    * reading the same log again succeeds, is not fresh and leaves the watermark. -/
theorem watermark_safe {probes : List KernelProbe} {utilization : KernelProbe} {answer : Answer}
    {r₀ : KernelReader} (h : start probes utilization answer = .ok r₀)
    (polls : List KernelPoll) (p : KernelPoll) :
    ((r₀.publications (polls ++ [p])).Pairwise fun earlier later =>
      StrictlyBelow earlier.delta.lines later.delta.lines ∧
        ∀ line ∈ earlier.delta.lines, line ∉ later.delta.lines) ∧
    (r₀.run polls).watermark.le ((r₀.run polls).poll p).watermark = true ∧
    ∀ r', (r₀.run polls).read p = .ok r' →
      (∀ line ∈ r'.delta.lines, ∃ t, time line = .ok t ∧
        (r₀.run polls).watermark.lt t = true ∧ t.le r'.watermark = true) ∧
      (r'.fresh = true ↔ r'.delta.lines ≠ []) ∧
      (r'.fresh = false →
        r'.watermark = (r₀.run polls).watermark ∧ ∀ d, r'.counts.get d = 0) ∧
      ∀ reading, ∃ r'', r'.read ⟨reading, p.answer⟩ = .ok r'' ∧ r''.delta.lines = [] ∧
        r''.fresh = false ∧ r''.watermark = r'.watermark := by
  have hstart : r₀.watermark.isNumber = true := isNumber_start h
  -- No watermark is anything but a number, so the comparisons are those of the places.
  have hr : (r₀.run polls).watermark.isNumber = true := isNumber_run polls hstart
  refine ⟨?_, ?_, ?_⟩
  · refine (published_ascending hstart).imp ?_
    intro earlier later hbelow
    -- A line has one time, so it cannot be on both sides.
    refine ⟨hbelow, fun line he hl => ?_⟩
    exact absurd rfl (hbelow.ne he hl)
  · rw [Binary64.le_iff hr (isNumber_poll p hr)]
    exact place_le_poll p hr
  · intro r' hread
    rcases updated_of_read hread with ⟨log, hlog, hupdated⟩
    refine ⟨?_, hupdated.fresh_iff, hupdated.stale, ?_⟩
    · intro line hline
      rcases hupdated.time_of_mem hr hline with ⟨t, ht, hnumber, hlt, hle⟩
      exact ⟨t, ht, (Binary64.lt_iff hr hnumber).mpr hlt,
        (Binary64.le_iff hnumber (hupdated.isNumber hr)).mpr hle⟩
    -- The second reading meets the same log, with nothing above the new watermark.
    · rw [hlog]
      exact reread_finds_nothing hupdated hr

/-- The case of a log that is out of order, then cleared, then behind its own clock. -/
theorem watermark_safe_unordered :
    ∃ r₀, start KernelProbe.all .ioctl (.ok ["[4.0] INFO: a", "[1.0] IOCTL kgsl: b"]) = .ok r₀ ∧
      (r₀.publications ([⟨.plain, .ok ["[9.0] IOCTL kgsl: c", "[5.0] TIME dsp: d"]⟩,
        ⟨.plain, .error ⟨"dmesg", "gone"⟩⟩, ⟨.counted true .zero, .ok []⟩]
          ++ [⟨.plain, .ok ["[2.0] INFO: e", "[9.5] IOCTL kgsl: f"]⟩])).Pairwise
        fun earlier later => StrictlyBelow earlier.delta.lines later.delta.lines ∧
          ∀ line ∈ earlier.delta.lines, line ∉ later.delta.lines := by
  -- That the reader starts is computed; the rest holds of any reader that did.
  have hok : (start KernelProbe.all .ioctl
      (.ok ["[4.0] INFO: a", "[1.0] IOCTL kgsl: b"])).isOk = true := by
    decide +kernel
  cases h : start KernelProbe.all .ioctl (.ok ["[4.0] INFO: a", "[1.0] IOCTL kgsl: b"]) with
  | error f =>
    rw [h] at hok
    cases hok
  | ok r₀ => exact ⟨r₀, rfl, (watermark_safe h _ _).1⟩

end KernelReader

end AccelMonitor
