import AccelMonitor.Proofs.KernelLog.Reading

/-!
# Readings in Place

A reading as a sequence of changes, any of which a failure could come after.

`KernelReader.next` and `nextCounted` return a new reader or a failure, so a failed reading
trivially changes nothing. A reader that is changed in place gives no such promise. It
changes its fields one after the other, and a call that fails halfway leaves the reader as
it is then. The calls are written here in this way, as they would have to run on a device,
with the duration of the last counted reading as one more field.

Looking fails only while it compares the log with the watermark, in front of its first
change. Counting reads times again after the watermark has moved. That it does not fail
there needs a reason, and the reason is where its lines come from: a walk has just read the
time of each of them. So both calls are the ones that return readers, and they fail together.

What a walk fails of is a line without a time that it gets to. Lines behind the first one
that was seen do not matter.

## Main definitions

* `TimedReader`: A reader with the duration of the last counted reading.
* `TimedReader.Call`: Changes to a reader which a failure does not take back.
* `TimedReader.look`, `lookAndCount`: The two ways of reading, in place.
* `KernelLog.MeetsUnreadable`: A walk gets to a line without a time.

## Theorems

* `look_eq`, `lookAndCount_eq`: Reading in place is reading.
* `newer_eq_error_iff`: When a walk fails.
* `failed_reading_changes_nothing`: All of it.
-/

namespace AccelMonitor

open KernelLog

/-- A reader with the duration of the last counted reading. -/
structure TimedReader extends KernelReader where
  latency : Nat

namespace TimedReader

/-- Changes to a reader. A failure leaves those that were made before it. -/
abbrev Call (α : Type) := EStateM Failure TimedReader α

/-- What may have failed without touching the reader. -/
def attempt {α : Type} (x : Except Failure α) : Call α :=
  MonadExcept.ofExcept x

/-- Sets all counts to zero. -/
def zeroCounts : Call Unit :=
  modify fun s => { s with counts := s.counts.zeroed }

/-- Counts the driver that a line names. -/
def tally (utilization : KernelProbe) (line : String) : Call Unit :=
  match driverOf utilization line with
  | none => pure ()
  | some driver => modify fun s => { s with counts := s.counts.bump driver }

/-- Changes the reader to what was found. -/
def commit (delta : Buckets) (newest : Binary64) : Call Unit := do
  modify fun s => { s with fresh := !delta.isEmpty }
  if delta.isEmpty then
    zeroCounts
  else
    modify fun s => { s with watermark := newest }
  modify fun s => { s with delta }

/-- Reads the log. -/
def look (answer : Answer) : Call Unit := do
  let log ← attempt (answer.mapError .spawn)
  let s ← get
  let found ← attempt
    (advance s.watermark (classify s.probes log) (Buckets.empty s.probes) s.watermark)
  commit found.1 found.2

/-- Counts the drivers of some lines, from zero. -/
def countLines (utilization : KernelProbe) (lines : List String) : Call Unit := do
  zeroCounts
  lines.forM (tally utilization)

/-- Reads the log and counts what is new. Which lines count is found out when the reader has
    been changed already. -/
def lookAndCount (full : Bool) (threshold : Binary64) (elapsed : Nat) (answer : Answer) :
    Call Unit := do
  look answer
  let s ← get
  let lines := s.delta.get s.utilization
  if lines = [] then
    zeroCounts
  else
    let counted ← attempt (eligible full threshold lines)
    countLines s.utilization counted
  modify fun s => { s with latency := elapsed }

variable (s : TimedReader)

theorem run_attempt_ok {α : Type} (a : α) : (attempt (.ok a)).run s = .ok a s := rfl

/-- Changing the reader to what was found does not fail. -/
theorem run_commit (delta : Buckets) (newest : Binary64) :
    (commit delta newest).run s = .ok () { s with toKernelReader := s.accept delta newest } := by
  unfold commit KernelReader.accept
  by_cases h : delta.isEmpty = true
  · simp only [h, if_true]
    rfl
  · simp only [h, if_false, Bool.false_eq_true]
    rfl

/-- Looking is reading, and a failure leaves the reader as it was: it comes from the command or
    the walks, and the fields are set only afterwards. -/
theorem look_eq (answer : Answer) :
    (look answer).run s = match s.next answer with
      | .ok r => .ok () { s with toKernelReader := r }
      | .error f => .error f s := by
  cases answer with
  | error e => rfl
  | ok log =>
    unfold look KernelReader.next
    have hlog : ((.ok log : Answer).mapError Failure.spawn) = .ok log := rfl
    simp only [hlog, EStateM.run_bind, run_attempt_ok, EStateM.run_get]
    cases advance s.watermark (classify s.probes log) (Buckets.empty s.probes) s.watermark with
    | error f => rfl
    | ok found => exact run_commit s found.1 found.2

/-- Counting one line after the other is counting all of them. A line without a driver is passed
    over. -/
theorem run_tally (utilization : KernelProbe) (lines : List String) :
    (lines.forM (tally utilization)).run s
      = .ok () { s with counts := countDrivers utilization s.counts lines } := by
  unfold countDrivers
  induction lines generalizing s with
  | nil => rfl
  | cons line lines ih =>
    simp only [List.forM_eq_forM, List.forM_cons, EStateM.run_bind] at ih ⊢
    rw [List.filterMap_cons]
    unfold tally at ih ⊢
    cases driverOf utilization line with
    | none => exact ih s
    | some driver => exact ih _

theorem run_countLines (utilization : KernelProbe) (lines : List String) :
    (countLines utilization lines).run s
      = .ok () { s with counts := countDrivers utilization s.counts.zeroed lines } :=
  run_tally { s with counts := s.counts.zeroed } utilization lines

/-- Looking and counting is reading and counting, and a failure leaves the reader as it
    was. -/
theorem lookAndCount_eq (full : Bool) (threshold : Binary64) (elapsed : Nat) (answer : Answer) :
    (lookAndCount full threshold elapsed answer).run s =
      match s.nextCounted full threshold answer with
      | .ok r => .ok () ⟨r, elapsed⟩
      | .error f => .error f s := by
  unfold lookAndCount KernelReader.nextCounted
  simp only [EStateM.run_bind, look_eq, EStateM.run_get]
  cases hnext : s.next answer with
  | error f => rfl
  | ok r =>
    simp only []
    rcases KernelReader.exists_eligible hnext full threshold with ⟨counted, helig⟩
    unfold KernelReader.count
    rw [helig]
    -- Without new lines nothing is counted, which is counting none.
    by_cases hnil : r.delta.get r.utilization = []
    · rw [hnil, KernelReader.eligible_nil, Except.ok.injEq] at helig
      simp only [hnil, if_true, ← helig]
      rfl
    · simp only [hnil, if_false, EStateM.run_bind, run_attempt_ok, run_countLines]
      rfl

end TimedReader

namespace KernelLog

/-- Of lines given newest first, one has no time, and all in front of it are above the
    watermark. -/
def MeetsUnreadable (watermark : Binary64) (lines : List String) : Prop :=
  ∃ passed line older, lines = passed ++ line :: older ∧
    (∀ l ∈ passed, ∃ t, time l = .ok t ∧ t.le watermark = false) ∧ ∃ f, time line = .error f

theorem not_meetsUnreadable_nil (watermark : Binary64) : ¬ MeetsUnreadable watermark [] := by
  rintro ⟨passed, line, older, heq, _⟩
  exact absurd heq.symm (List.append_ne_nil_of_right_ne_nil _ (List.cons_ne_nil _ _))

/-- A line with a time is passed if it is above the watermark and ends the walk if not. -/
theorem meetsUnreadable_cons {watermark t : Binary64} {line : String} (ht : time line = .ok t)
    (older : List String) :
    MeetsUnreadable watermark (line :: older) ↔
      t.le watermark = false ∧ MeetsUnreadable watermark older := by
  constructor
  · rintro ⟨passed, unread, rest, heq, hpassed, f, hf⟩
    -- The line itself can be read, so it is not the one that stops the walk.
    cases passed with
    | nil =>
      rw [← (List.cons.inj heq).1, ht] at hf
      cases hf
    | cons first passed =>
      rcases List.cons.inj heq with ⟨rfl, rfl⟩
      rcases hpassed line (List.mem_cons_self ..) with ⟨u, hu, hle⟩
      rw [ht, Except.ok.injEq] at hu
      rw [hu]
      exact ⟨hle, passed, unread, rest, rfl, fun l hl => hpassed l (List.mem_cons_of_mem _ hl),
        f, hf⟩
  · rintro ⟨hle, passed, unread, rest, rfl, hpassed, hf⟩
    refine ⟨line :: passed, unread, rest, rfl, ?_, hf⟩
    intro l hl
    rcases List.mem_cons.mp hl with rfl | hl
    · exact ⟨t, ht, hle⟩
    · exact hpassed l hl

/-- A walk fails when it gets to a line without a time. Lines behind the first one that is not
    newer are not looked at, so they may lack a time. -/
theorem newer_eq_error_iff {watermark : Binary64} {lines : List String} :
    (∃ f, newer watermark lines = .error f) ↔ MeetsUnreadable watermark lines := by
  -- By induction along the walk: each line ends it, fails or is passed.
  induction lines with
  | nil =>
    constructor
    · rintro ⟨f, hf⟩
      cases hf
    · intro h
      exact absurd h (not_meetsUnreadable_nil watermark)
  | cons line older ih =>
    rw [newer]
    cases htime : time line with
    | error f =>
      constructor
      · intro _
        exact ⟨[], line, older, rfl, List.forall_mem_nil _, f, htime⟩
      · intro _
        exact ⟨f, rfl⟩
    | ok t =>
      rw [meetsUnreadable_cons htime, ← ih]
      by_cases hle : t.le watermark = true
      · simp only [hle, if_true, reduceCtorEq, exists_false, Bool.true_eq_false, false_and]
      · rw [Bool.not_eq_true] at hle
        simp only [hle, Bool.false_eq_true, if_false, true_and]
        cases newer watermark older with
        | error f => simp only [Except.error.injEq]
        | ok rest => simp only [reduceCtorEq]

end KernelLog

/-- Reading fails when the command does or some walk does. All walks are done before the reader is
    changed, and there is nothing else in a reading that can fail. -/
theorem KernelReader.next_eq_error_iff {r : KernelReader} {answer : Answer} :
    (∃ f, r.next answer = .error f) ↔
      (∃ e, answer = .error e) ∨ ∃ log, answer = .ok log ∧
        ∃ bucket ∈ classify r.probes log, MeetsUnreadable r.watermark bucket.lines.reverse := by
  cases answer with
  | error e =>
    constructor
    · intro _
      exact Or.inl ⟨e, rfl⟩
    · intro _
      exact ⟨.spawn e, rfl⟩
  | ok log =>
    constructor
    · rintro ⟨f, hf⟩
      refine Or.inr ⟨log, rfl, Classical.byContradiction fun hnone => ?_⟩
      -- Without a failure all walks succeed, and then so does the reading.
      have hwalks : r.WalksThrough log := by
        intro bucket hbucket
        cases hnewer : newer r.watermark bucket.lines.reverse with
        | ok found => exact ⟨found, rfl⟩
        | error f =>
          exact absurd ⟨bucket, hbucket, newer_eq_error_iff.mp ⟨f, hnewer⟩⟩ hnone
      rw [next_of_walks hwalks] at hf
      cases hf
    · rintro (⟨e, he⟩ | ⟨_, hlog, bucket, hbucket, hmeets⟩)
      · cases he
      · cases hlog
        cases hnext : r.next (.ok log) with
        | error f => exact ⟨f, rfl⟩
        -- A reading that succeeds has walked through every bucket.
        | ok r' =>
          rcases next_eq_ok hnext with ⟨_, hlog, hwalks, _⟩
          cases hlog
          rcases newer_eq_error_iff.mpr hmeets with ⟨f, hf⟩
          rcases hwalks bucket hbucket with ⟨found, hfound⟩
          rw [hfound] at hf
          cases hf

namespace TimedReader

/-- A failed reading changes nothing, in whatever state the reader is and whatever the command
    printed:

    * looking, in place, fails when reading does, with its failure, and leaves the reader;
    * looking and counting fails when reading without counting does, and leaves the reader;
    * so does reading with counting, where no reader is changed;
    * reading fails when the command could not be started, or when the walk through some bucket
      from its newest line back gets to a line without a time before it gets to one at or
      below the watermark. -/
theorem failed_reading_changes_nothing (s : TimedReader) (answer : Answer) :
    (∀ f s', (look answer).run s = .error f s' ↔ s.next answer = .error f ∧ s' = s) ∧
    (∀ full threshold elapsed f s',
      (lookAndCount full threshold elapsed answer).run s = .error f s' ↔
        s.next answer = .error f ∧ s' = s) ∧
    (∀ full threshold f,
      s.nextCounted full threshold answer = .error f ↔ s.next answer = .error f) ∧
    ((∃ f, s.next answer = .error f) ↔
      (∃ e, answer = .error e) ∨ ∃ log, answer = .ok log ∧
        ∃ bucket ∈ classify s.probes log, MeetsUnreadable s.watermark bucket.lines.reverse) := by
  refine ⟨?_, ?_, fun _ _ _ => KernelReader.nextCounted_eq_error_iff,
    KernelReader.next_eq_error_iff⟩
  · intro f s'
    rw [look_eq]
    cases s.next answer with
    | error g => simp only [EStateM.Result.error.injEq, Except.error.injEq, eq_comm]
    | ok r => simp only [reduceCtorEq, false_and]
  · intro full threshold elapsed f s'
    rw [lookAndCount_eq, ← KernelReader.nextCounted_eq_error_iff]
    cases s.nextCounted full threshold answer with
    | error g => simp only [EStateM.Result.error.injEq, Except.error.injEq, eq_comm]
    | ok r => simp only [reduceCtorEq, false_and]

end TimedReader

end AccelMonitor
