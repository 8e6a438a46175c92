import AccelMonitor.Counts
import AccelMonitor.KernelLog.Buckets
import AccelMonitor.Shell.Script

/-!
# Reading the Kernel Log Incrementally

What is new in the kernel log since the last look.

The kernel log can only be read whole. A reader remembers the time of the newest
line it has seen, its *watermark*, and after every reading walks each probe's
lines from the newest back until it meets one that is not newer. What it passed
is the delta: the lines to be worked on. A line of exactly the watermark's time
has been seen. The watermark moves only when the delta holds something, and a
reading that fails in any way leaves the reader as it was.

The lines of one probe, the utilization probe, are also counted by the driver
that they name. The counts start over with every delta. Names once seen stay
listed, at zero if need be, so that a display does not jump. Unless all lines are
wanted, only those within a time span before the newest one are counted.

## Main definitions

* `KernelReader`: The state of a reader.
* `KernelReader.start`: A reader past everything already in the log.
* `KernelReader.next`: The delta of a reading.
* `KernelReader.nextCounted`: The delta of a reading, counted.
* `KernelReader.after`: The reader after a reading that may have failed.
* `KernelReader.launch`, `readNext`, `readCounted`: The same with the
  command that prints the log.
* `KernelSnapshot`: What a reading publishes.

## Theorems

* `newer_le`: Nothing at or below the watermark is taken.
* `after_error`: A failed reading leaves the reader as it was.
-/

namespace AccelMonitor

/-- The command that prints the kernel log. -/
def kernelLogCommand : String :=
  "dmesg"

/-- The drivers that are listed even before they are seen. -/
def knownDrivers : List String :=
  ["ardeno", "kgsl", "vidioc", "cam_sensor", "v4l2", "IPA", "aDSP", "cDSP", "ICE", "Others"]

/-- The state of a reader of the kernel log. Every reading gets the whole log again, so what is
    new has to be told by the watermark. -/
structure KernelReader where
  /-- The probes whose lines are kept. -/
  probes : List KernelProbe
  /-- The probe whose lines are counted. -/
  utilization : KernelProbe
  /-- The newest time seen. -/
  watermark : Binary64
  /-- The lines of the last reading, at first the whole log. -/
  delta : Buckets
  /-- How often each driver was named in the last reading. -/
  counts : Counts
  /-- The last reading brought something new. -/
  fresh : Bool

/-- What a reading publishes. -/
structure KernelSnapshot where
  /-- How often each driver was named. -/
  counts : Counts
  /-- The new lines. -/
  delta : Buckets
  /-- There are new lines. -/
  fresh : Bool

namespace KernelLog

/-- A line with its time. -/
structure TimedLine where
  time : Binary64
  line : String

/-- The lines above the watermark, of lines given newest first, up to the first one that is not.
    A line in front of that whose time cannot be read fails the walk; one behind it is never
    looked at. -/
def newer (watermark : Binary64) : List String → Except Failure (List TimedLine)
  | [] => .ok []
  | line :: older =>
    match time line with
    | .error f => .error f
    | .ok t =>
      -- From the first line that was seen on, everything was.
      if t.le watermark then .ok []
      else
        match newer watermark older with
        | .error f => .error f
        | .ok rest => .ok (⟨t, line⟩ :: rest)

/-- Nothing at or below the watermark is taken. -/
theorem newer_le {watermark : Binary64} {lines : List String} {taken : List TimedLine}
    (h : newer watermark lines = .ok taken) : ∀ l ∈ taken, l.time.le watermark = false := by
  induction lines generalizing taken with
  | nil => cases h; exact fun l hl => absurd hl List.not_mem_nil
  | cons line older ih =>
    rw [newer] at h
    split at h
    · cases h
    · split at h
      · cases h; exact fun l hl => absurd hl List.not_mem_nil
      · rename_i t _ hle
        split at h
        · cases h
        · rename_i rest hrest
          cases h
          intro l hl
          rcases List.mem_cons.mp hl with rfl | hl
          · exact Bool.eq_false_iff.mpr hle
          · exact ih hrest l hl

/-- The larger of the watermark and the times of some lines. -/
def newest (watermark : Binary64) (lines : List TimedLine) : Binary64 :=
  lines.foldl (fun w l => w.larger l.time) watermark

/-- The delta and the newest time after going through the buckets of a log. Each bucket's new
    lines replace what the delta holds for its probe, and the watermark that the walks compare
    with stays the old one throughout. -/
def advance (watermark : Binary64) :
    Buckets → Buckets → Binary64 → Except Failure (Buckets × Binary64)
  | [], delta, sofar => .ok (delta, sofar)
  | bucket :: rest, delta, sofar =>
    match newer watermark bucket.lines.reverse with
    | .error f => .error f
    | .ok taken =>
      advance watermark rest (delta.put bucket.probe (taken.map TimedLine.line).reverse)
        (newest sofar taken)

/-- The newest time of the last lines of some buckets, and of a time so far. -/
def lastTime : Binary64 → Buckets → Except Failure Binary64
  | sofar, [] => .ok sofar
  | sofar, bucket :: rest =>
    match bucket.lines.getLast? with
    | none => lastTime sofar rest
    | some line =>
      match time line with
      | .error f => .error f
      | .ok t => lastTime (sofar.larger t) rest

/-- The driver that a line of a probe names. -/
def driverPattern (utilization : KernelProbe) : Pattern :=
  .all [.str utilization.keyword, .str " ", .group 1 (.some1 Pattern.isNameChar), .str ":"]

/-- The driver that a line of a probe names. -/
def driverOf (utilization : KernelProbe) (line : String) : Option String :=
  ((driverPattern utilization).search line.toList).map fun g => g.get 1

/-- Of lines given newest first, those up to the first one before a time. Lines need not be in
    order, and nothing behind that line counts, however new it is. -/
def since (cutoff : Binary64) : List String → Except Failure (List String)
  | [] => .ok []
  | line :: older =>
    match time line with
    | .error f => .error f
    | .ok t =>
      if t.lt cutoff then .ok []
      else
        match since cutoff older with
        | .error f => .error f
        | .ok rest => .ok (line :: rest)

/-- The lines that count: all of them, or those at most `threshold` seconds before the
    last one. -/
def eligible (full : Bool) (threshold : Binary64) (lines : List String) :
    Except Failure (List String) :=
  match full, lines.getLast? with
  | true, _ => .ok lines
  | false, none => .ok lines
  | false, some last =>
    match time last with
    | .error f => .error f
    | .ok t => (since (t.sub threshold) lines.reverse).map List.reverse

/-- The counts with every driver named by a line counted once more. -/
def countDrivers (utilization : KernelProbe) (counts : Counts) (lines : List String) : Counts :=
  (lines.filterMap (driverOf utilization)).foldl Counts.bump counts

end KernelLog

namespace KernelReader

open KernelLog

/-- A reader past everything in the log that the command printed. The lines that are there
    already are its first delta, but they are not fresh, and none of them is counted. -/
def start (probes : List KernelProbe) (utilization : KernelProbe) (answer : Answer) :
    Except Failure KernelReader :=
  match answer with
  | .error f => .error (.spawn f)
  | .ok lines =>
    let delta := classify probes lines
    (lastTime .zero delta).map fun time =>
      { probes, utilization, watermark := time, delta, fresh := false
        counts := Table.ofList (knownDrivers.map fun d => (d, 0)) }

/-- The reader after it has found a delta. -/
def accept (r : KernelReader) (delta : Buckets) (time : Binary64) : KernelReader :=
  -- The counts of an earlier delta must not outlive it.
  if delta.isEmpty then { r with delta, fresh := false, counts := r.counts.zeroed }
  else { r with delta, fresh := true, watermark := time }

/-- The reader after a reading, with its delta. -/
def next (r : KernelReader) (answer : Answer) : Except Failure KernelReader :=
  match answer with
  | .error f => .error (.spawn f)
  | .ok lines =>
    (advance r.watermark (classify r.probes lines) (Buckets.empty r.probes) r.watermark).map
      fun found => r.accept found.1 found.2

/-- The reader with its delta counted. -/
def count (r : KernelReader) (full : Bool) (threshold : Binary64) : Except Failure KernelReader :=
  (eligible full threshold (r.delta.get r.utilization)).map fun lines =>
    { r with counts := countDrivers r.utilization r.counts.zeroed lines }

/-- The reader after a reading, with its delta counted. -/
def nextCounted (r : KernelReader) (full : Bool) (threshold : Binary64) (answer : Answer) :
    Except Failure KernelReader :=
  match r.next answer with
  | .error f => .error f
  | .ok r' => r'.count full threshold

/-- The reader after a reading that may have failed. -/
def after (r : KernelReader) (reading : Except Failure KernelReader) : KernelReader :=
  reading.toOption.getD r

/-- A failed reading leaves the reader as it was. -/
theorem after_error (r : KernelReader) (f : Failure) : r.after (.error f) = r := rfl

/-- Starts a reader. There has to be a probe. -/
def launch (probes : List KernelProbe) (utilization : KernelProbe) :
    Script (Except Failure KernelReader) :=
  match required probes with
  | .error f => .done (.error f)
  | .ok probes => .ask kernelLogCommand fun answer => .done (start probes utilization answer)

/-- Reads the log once more. -/
def readNext (r : KernelReader) : Script (Except Failure KernelReader) :=
  .ask kernelLogCommand fun answer => .done (r.next answer)

/-- Reads the log once more and counts what is new. -/
def readCounted (r : KernelReader) (full : Bool) (threshold : Binary64) :
    Script (Except Failure KernelReader) :=
  .ask kernelLogCommand fun answer => .done (r.nextCounted full threshold answer)

/-- What the reader publishes. -/
def published (r : KernelReader) : KernelSnapshot :=
  ⟨r.counts, r.delta, r.fresh⟩

end KernelReader

end AccelMonitor
