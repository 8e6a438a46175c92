import AccelMonitor.KernelLog.Reader
import AccelMonitor.Proofs.KernelLog.Shape
import AccelMonitor.Proofs.KernelLog.Sorting
import AccelMonitor.Proofs.Number.Order

/-!
# What a Walk Takes

The delta of a reading, bucket by bucket.

A reading walks every bucket from its newest line back and stops at the first line
that is not above the watermark. Walks of different buckets do not influence each
other: each looks at the watermark from before the reading. `advance_eq_ok` says
so. The reading succeeds exactly when every walk does, its delta is what the walks
took, put back into the order of the log, and its newest time is the largest among
all the times that were taken.

The largest of some times turns up three times, in the watermark that a reader
starts with, in the one after a reading and in what a whole run has reached, so it
is a notion of its own, `Peak`: a value that is above all of the times and is one
of them, or the value that it started from.

## Main definitions

* `Peak`: The largest of some times and of a value to start from.
* `KernelLog.taken`: What the walk through a bucket takes.
* `KernelLog.kept`: The same lines, in the order of the log.

## Theorems

* `Peak.foldl_larger`: The largest value is found one by one.
* `newer_cons`: One step of a walk.
* `newer_isOk`: A walk through lines with times succeeds.
* `newer_append`: A walk takes all lines above the watermark.
* `advance_eq_ok`: What a reading finds.
* `mem_lines_delta`, `get_delta`: What a delta holds.
* `lastTime_eq_ok`: The time that a reader starts with.
-/

namespace AccelMonitor

/-- `top` is the largest of some times and of `base`. It is stated through places in the order
    of numbers, because two zeros are different values at one place. -/
structure Peak (base : Binary64) (times : List Binary64) (top : Binary64) : Prop where
  isNumber : top.isNumber = true
  base_le : base.place ≤ top.place
  le : ∀ t ∈ times, t.place ≤ top.place
  attained : top.place = base.place ∨ ∃ t ∈ times, t.place = top.place

namespace Peak

theorem refl {base : Binary64} (h : base.isNumber = true) : Peak base [] base where
  isNumber := h
  base_le := Int.le_refl _
  le := List.forall_mem_nil _
  attained := Or.inl rfl

/-- One more time in front: a peak over the larger of it and the base is one over both. -/
theorem cons {base t top : Binary64} {times : List Binary64} (hbase : base.isNumber = true)
    (ht : t.isNumber = true) (h : Peak (base.larger t) times top) : Peak base (t :: times) top := by
  have hplace := Binary64.place_larger hbase ht
  have hle := h.base_le
  refine ⟨h.isNumber, by omega, ?_, ?_⟩
  · intro u hu
    rcases List.mem_cons.mp hu with rfl | hu
    · omega
    · exact h.le u hu
  · rcases h.attained with heq | ⟨u, hu, heq⟩
    · -- The larger of the two is one of them.
      rcases Int.le_total t.place base.place with hlt | hlt
      · exact Or.inl (by omega)
      · exact Or.inr ⟨t, List.mem_cons_self .., by omega⟩
    · exact Or.inr ⟨u, List.mem_cons_of_mem t hu, heq⟩

/-- Taking the larger value again and again finds the largest. -/
theorem foldl_larger {base : Binary64} {times : List Binary64} (hbase : base.isNumber = true)
    (ht : ∀ t ∈ times, t.isNumber = true) : Peak base times (times.foldl Binary64.larger base) := by
  induction times generalizing base with
  | nil => exact Peak.refl hbase
  | cons t times ih =>
    have hfirst : t.isNumber = true := ht t (List.mem_cons_self ..)
    have hrest : ∀ u ∈ times, u.isNumber = true := fun u hu => ht u (List.mem_cons_of_mem t hu)
    exact Peak.cons hbase hfirst (ih (Binary64.isNumber_larger hbase hfirst) hrest)

end Peak

namespace KernelLog

/-- One step of a walk: the line is at or below the watermark and ends the walk, or it
    is taken along. -/
theorem newer_cons {watermark : Binary64} {line : String} {older : List String}
    {found : List TimedLine} (h : newer watermark (line :: older) = .ok found) :
    ∃ t, time line = .ok t ∧
      ((t.le watermark = true ∧ found = []) ∨
        (t.le watermark = false ∧
          ∃ rest, newer watermark older = .ok rest ∧ found = ⟨t, line⟩ :: rest)) := by
  rw [newer] at h
  cases htime : time line with
  | error f =>
    rw [htime] at h
    cases h
  | ok t =>
    rw [htime] at h
    refine ⟨t, rfl, ?_⟩
    by_cases hle : t.le watermark = true
    · simp only [if_pos hle, Except.ok.injEq] at h
      exact Or.inl ⟨hle, h.symm⟩
    · simp only [if_neg hle] at h
      cases hrest : newer watermark older with
      | error f =>
        rw [hrest] at h
        cases h
      | ok rest =>
        simp only [hrest, Except.ok.injEq] at h
        exact Or.inr ⟨Bool.not_eq_true _ ▸ hle, rest, rfl, h.symm⟩

/-- What a walk takes comes from the lines, and its times are theirs. -/
theorem newer_taken {watermark : Binary64} {lines : List String} {found : List TimedLine}
    (h : newer watermark lines = .ok found) :
    ∀ l ∈ found, l.line ∈ lines ∧ time l.line = .ok l.time := by
  induction lines generalizing found with
  | nil =>
    cases h
    exact List.forall_mem_nil _
  | cons line older ih =>
    -- The line ends the walk, or it is taken and the walk goes on behind it.
    rcases newer_cons h with ⟨t, ht, ⟨_, rfl⟩ | ⟨_, rest, hrest, rfl⟩⟩
    · exact List.forall_mem_nil _
    · intro l hl
      rcases List.mem_cons.mp hl with rfl | hl
      · exact ⟨List.mem_cons_self .., ht⟩
      · have hl := ih hrest l hl
        exact ⟨List.mem_cons_of_mem line hl.1, hl.2⟩

/-- A walk through lines whose times can be read succeeds. -/
theorem newer_isOk (watermark : Binary64) {lines : List String}
    (h : ∀ line ∈ lines, ∃ t, time line = .ok t) : ∃ found, newer watermark lines = .ok found := by
  induction lines with
  | nil => exact ⟨[], rfl⟩
  | cons line older ih =>
    rcases h line (List.mem_cons_self ..) with ⟨t, ht⟩
    rcases ih fun l hl => h l (List.mem_cons_of_mem line hl) with ⟨found, hfound⟩
    rw [newer, ht, hfound]
    by_cases hle : t.le watermark = true
    · exact ⟨[], by simp only [if_pos hle]⟩
    · exact ⟨⟨t, line⟩ :: found, by simp only [if_neg hle]⟩

/-- A walk ends at once at a line that was seen. -/
theorem newer_seen {watermark t : Binary64} {line : String} (ht : time line = .ok t)
    (hle : t.le watermark = true) (older : List String) :
    newer watermark (line :: older) = .ok [] := by
  rw [newer, ht]
  simp only [if_pos hle]

/-- A walk takes all lines above the watermark, up to where another walk would take
    nothing. -/
theorem newer_append {watermark : Binary64} {fresh seen : List String}
    (hfresh : ∀ line ∈ fresh, ∃ t, time line = .ok t ∧ t.le watermark = false)
    (hseen : newer watermark seen = .ok []) :
    ∃ found, newer watermark (fresh ++ seen) = .ok found ∧
      found.map TimedLine.line = fresh := by
  induction fresh with
  | nil => exact ⟨[], hseen, rfl⟩
  | cons line fresh ih =>
    -- A line above the watermark is taken, and the walk goes on as it would from there.
    rcases ih fun l hl => hfresh l (List.mem_cons_of_mem line hl) with ⟨rest, hrest, hlines⟩
    rcases hfresh line (List.mem_cons_self ..) with ⟨t, ht, hle⟩
    refine ⟨⟨t, line⟩ :: rest, ?_, ?_⟩
    · rw [List.cons_append, newer, ht, hrest]
      simp only [hle, Bool.false_eq_true, if_false]
    · rw [List.map_cons, hlines]

theorem newest_eq (sofar : Binary64) (found : List TimedLine) :
    newest sofar found = (found.map TimedLine.time).foldl Binary64.larger sofar :=
  List.foldl_map.symm

theorem newest_append (sofar : Binary64) (found more : List TimedLine) :
    newest sofar (found ++ more) = newest (newest sofar found) more :=
  List.foldl_append

/-- What the walk through a bucket takes, newest first. -/
def taken (watermark : Binary64) (bucket : Bucket) : List TimedLine :=
  (newer watermark bucket.lines.reverse).toOption.getD []

/-- The lines that the walk through a bucket takes, in the order of the log. -/
def kept (watermark : Binary64) (bucket : Bucket) : List String :=
  ((taken watermark bucket).map TimedLine.line).reverse

/-- Some buckets with the lines that the walks through others took put in. -/
def putKept (watermark : Binary64) (walked delta : Buckets) : Buckets :=
  walked.foldl (fun d bucket => d.put bucket.probe (kept watermark bucket)) delta

theorem taken_of_newer {watermark : Binary64} {bucket : Bucket} {found : List TimedLine}
    (h : newer watermark bucket.lines.reverse = .ok found) : taken watermark bucket = found := by
  rw [taken, h]
  rfl

/-- What a reading finds: it succeeds when every walk does, its delta is what the walks kept,
    and its newest time is the largest that they met. The program goes through the buckets once
    and carries the delta and the newest time along. On the right these are apart, so that what
    follows can speak of either without the other, and of a failure without both. -/
theorem advance_eq_ok {watermark sofar : Binary64} {walked delta : Buckets}
    {found : Buckets × Binary64} :
    advance watermark walked delta sofar = .ok found ↔
      (∀ bucket ∈ walked, ∃ l, newer watermark bucket.lines.reverse = .ok l) ∧
        found = (putKept watermark walked delta,
          newest sofar (walked.flatMap (taken watermark))) := by
  -- By induction on the buckets, from any delta and newest time, for each bucket changes both
  -- of them.
  induction walked generalizing delta sofar with
  | nil =>
    rw [advance, Except.ok.injEq]
    constructor
    · intro h
      exact ⟨List.forall_mem_nil _, h.symm⟩
    · intro h
      exact h.2.symm
  | cons bucket walked ih =>
    rw [advance]
    -- A bucket whose walk fails ends the reading, on both sides.
    cases hnewer : newer watermark bucket.lines.reverse with
    | error f =>
      constructor
      · intro h
        cases h
      · intro h
        rcases h.1 bucket (List.mem_cons_self ..) with ⟨l, hl⟩
        rw [hnewer] at hl
        cases hl
    | ok l =>
      simp only []
      -- What this bucket adds goes into the delta and the time that the others start from.
      have htaken := taken_of_newer hnewer
      have hput : putKept watermark (bucket :: walked) delta
          = putKept watermark walked
            (delta.put bucket.probe (l.map TimedLine.line).reverse) := by
        rw [putKept, List.foldl_cons, kept, htaken, putKept]
      rw [ih, hput, List.flatMap_cons, newest_append, htaken, List.forall_mem_cons]
      constructor
      · intro h
        exact ⟨⟨⟨l, hnewer⟩, h.1⟩, h.2⟩
      · intro h
        exact ⟨h.1.2, h.2⟩

/-- A line of the delta was there before or was kept by a walk. -/
theorem mem_lines_delta {watermark : Binary64} {walked delta : Buckets} {line : String}
    (h : line ∈ (putKept watermark walked delta).lines) :
    line ∈ delta.lines ∨ ∃ bucket ∈ walked, line ∈ kept watermark bucket := by
  induction walked generalizing delta with
  | nil => exact Or.inl h
  | cons bucket walked ih =>
    rcases ih h with h | ⟨other, hother, h⟩
    · rcases Buckets.mem_lines_update h with h | ⟨_, _, h⟩
      · exact Or.inl h
      · exact Or.inr ⟨bucket, List.mem_cons_self .., h⟩
    · exact Or.inr ⟨other, List.mem_cons_of_mem bucket hother, h⟩

/-- Where walks keep nothing for a probe, its lines stay. -/
theorem get_delta_of_not_mem {watermark : Binary64} {walked delta : Buckets} {p : KernelProbe}
    (hp : p ∉ walked.probes) : (putKept watermark walked delta).get p = delta.get p := by
  induction walked generalizing delta with
  | nil => rfl
  | cons bucket walked ih =>
    rw [Buckets.probes, List.map_cons, List.mem_cons, not_or] at hp
    have hput : (delta.put bucket.probe (kept watermark bucket)).get p = delta.get p := by
      rw [Buckets.put, Buckets.get_update, if_neg fun h => hp.1 h.1.symm]
    exact (ih hp.2).trans hput

/-- Where no probe is repeated, the delta holds for a probe what the walk through its
    bucket kept. -/
theorem get_delta {watermark : Binary64} {walked delta : Buckets} (hw : walked.probes.Nodup)
    (hd : ∀ p ∈ walked.probes, p ∈ delta.probes) {bucket : Bucket} (hb : bucket ∈ walked) :
    (putKept watermark walked delta).get bucket.probe = kept watermark bucket := by
  induction walked generalizing delta with
  | nil => exact absurd hb List.not_mem_nil
  | cons first walked ih =>
    rw [Buckets.probes, List.map_cons, List.nodup_cons] at hw
    have hput : (delta.put first.probe (kept watermark first)).probes = delta.probes :=
      Buckets.probes_update ..
    rcases List.mem_cons.mp hb with rfl | hb
    · -- Later buckets have other probes and leave this entry as it is.
      have hmem : bucket.probe ∈ delta.probes := hd bucket.probe (List.mem_cons_self ..)
      have hhere : (delta.put bucket.probe (kept watermark bucket)).get bucket.probe
          = kept watermark bucket := by
        rw [Buckets.put, Buckets.get_update, if_pos ⟨rfl, hmem⟩]
      exact (get_delta_of_not_mem hw.1).trans hhere
    · refine ih hw.2 (fun p hp => ?_) hb
      rw [hput]
      exact hd p (List.mem_cons_of_mem first.probe hp)

/-- The times of the last lines of some buckets. -/
def lastTimes (b : Buckets) : List Binary64 :=
  b.filterMap fun bucket => bucket.lines.getLast?.bind fun line => (time line).toOption

/-- A last line's time is among those of the last lines. A last line without a time is left out
    here, where the reader would have failed on it. -/
theorem mem_lastTimes {b : Buckets} {t : Binary64} :
    t ∈ lastTimes b ↔
      ∃ bucket ∈ b, ∃ line, bucket.lines.getLast? = some line ∧ time line = .ok t := by
  rw [lastTimes, List.mem_filterMap]
  constructor
  · rintro ⟨bucket, hbucket, h⟩
    rcases Option.bind_eq_some_iff.mp h with ⟨line, hlast, ht⟩
    refine ⟨bucket, hbucket, line, hlast, ?_⟩
    cases htime : time line with
    | error f =>
      rw [htime] at ht
      cases ht
    | ok u =>
      rw [htime] at ht
      rw [Option.some.inj ht]
  · rintro ⟨bucket, hbucket, line, hlast, ht⟩
    refine ⟨bucket, hbucket, ?_⟩
    rw [hlast, Option.bind_some, ht]
    rfl

/-- The time that a reader starts with: every last line's time can be read, and it is the
    largest of them. -/
theorem lastTime_eq_ok {sofar top : Binary64} {b : Buckets} :
    lastTime sofar b = .ok top ↔
      (∀ bucket ∈ b, ∀ line, bucket.lines.getLast? = some line → ∃ t, time line = .ok t) ∧
        top = (lastTimes b).foldl Binary64.larger sofar := by
  induction b generalizing sofar with
  | nil =>
    rw [lastTime, Except.ok.injEq]
    constructor
    · intro h
      exact ⟨List.forall_mem_nil _, h.symm⟩
    · intro h
      exact h.2.symm
  | cons bucket b ih =>
    rw [lastTime, lastTimes, List.filterMap_cons, List.forall_mem_cons]
    cases hlast : bucket.lines.getLast? with
    | none =>
      -- An empty bucket has no last line and no say.
      simp only [Option.bind_none, reduceCtorEq, false_implies, implies_true, true_and]
      exact ih
    | some line =>
      simp only [Option.some.injEq, forall_eq', Option.bind_some]
      cases htime : time line with
      | error f => simp only [reduceCtorEq, exists_false, false_and]
      | ok t =>
        simp only [Except.ok.injEq, exists_eq', true_and]
        exact ih

end KernelLog

end AccelMonitor
