import AccelMonitor.Benchmark.Handle
import AccelMonitor.Benchmark.Report
import AccelMonitor.Breakdown
import AccelMonitor.DeviceLog.Reader
import AccelMonitor.KernelLog.Reader
import AccelMonitor.Processor

/-!
# The Session

Everything the monitor knows, and how what it is told changes it.

The session is the end of the line: readers publish snapshots, jobs hand in
results, and the session folds them into what is displayed. Counts and loads are
replaced by each snapshot, and the peaks remember the largest counts. New lines
go into the breakdown, into the offload total if the framework keeps one, and
into the log of recent device lines. Snapshots that are not fresh leave all of
these alone.

Benchmarks are consumed in the order in which they were tracked, so one that
ended early waits behind an older one that has not. Tracking a benchmark clears
the results and makes its framework the session's; a result is summarized under
the framework of its own job. The tracked benchmarks are numbered from zero in
that order, and their results are delivered by that number.

## Main definitions

* `Session`: The state.
* `Session.applyKernel`, `applyDevice`, `applyLoads`: Fold a snapshot in.
* `Session.track`, `deliver`, `poll`, `clear`: The benchmarks.
* `SessionEvent`, `Session.step`, `Session.run`: All of these as events.
* `SessionEvent.kernel?`, `SessionEvent.device?`: The snapshot of an event.

## Theorems

* `poll_total`: Polling neither loses nor invents a benchmark.
-/

namespace AccelMonitor

/-- How many device log lines are kept. -/
def logLimit : Nat :=
  1000

/-- Everything the monitor knows. Snapshots of the two logs, the loads and the results of
    benchmarks are folded into it one after the other, and what is displayed or exported is read
    off it. -/
structure Session where
  /-- The framework of the benchmark tracked last. -/
  framework : Framework
  /-- The runs of a benchmark. There is always one. -/
  runs : Nat
  /-- Where the time of the benchmarks went. -/
  stats : Statistics
  /-- What applications asked the drivers for. -/
  breakdown : Breakdown
  /-- How often each driver was named lately. -/
  counts : Counts
  /-- The largest of each of those counts so far. -/
  peaks : Counts
  /-- The load of each processor core. -/
  loads : Loads
  /-- Recent lines of the device log, oldest first. -/
  log : List String
  /-- The benchmarks that have not been consumed, in the order of tracking. -/
  pending : List Handle
  /-- How many benchmarks have been consumed. -/
  completed : Nat

/-- The last values of a list, at most `n` of them. -/
def lastOnes {α : Type} (n : Nat) (l : List α) : List α :=
  l.drop (l.length - n)

/-- There are at most `n` last values. -/
theorem length_lastOnes_le {α : Type} (n : Nat) (l : List α) : (lastOnes n l).length ≤ n := by
  rw [lastOnes, List.length_drop]
  omega

namespace Session

/-- A session that knows nothing. -/
def start (framework : Framework) (runs : Nat) : Session :=
  { framework, runs := max runs 1, stats := .zero, breakdown := ∅, counts := ∅, peaks := ∅
    loads := ∅, log := [], pending := [], completed := 0 }

/-- Peaks after they have seen some counts. -/
def raisePeaks (peaks counts : Counts) : Counts :=
  counts.toList.foldl (fun p e => p.raise e.1 e.2) peaks

/-- The probes whose lines go into the breakdown. -/
def breakdownProbes : List KernelProbe :=
  [.ioctl, .info]

/-- A breakdown with the new lines of its probes. -/
def breakdownOf (b : Breakdown) (delta : Buckets) : Breakdown :=
  breakdownProbes.foldl (fun b p => (b.count (delta.get p) p).toOption.getD b) b

/-- Statistics with the offload time of new kernel log lines. -/
def kernelOffload (stats : Statistics) (delta : Buckets) : Statistics :=
  (Offload.update .gpu (delta.get .ioctl) (Offload.update .kernel (delta.get .time) stats).2).2

/-- Folds a snapshot of the kernel log in. The counts are always replaced, so a reading without
    new lines takes them back to zero. Everything else waits for new lines. -/
def applyKernel (s : Session) (snapshot : KernelSnapshot) : Session :=
  let counted := { s with
    counts := snapshot.counts, peaks := raisePeaks s.peaks snapshot.counts }
  if snapshot.fresh then
    { counted with
      breakdown := breakdownOf s.breakdown snapshot.delta
      stats := if s.framework.drivesTool then kernelOffload s.stats snapshot.delta else s.stats }
  else counted

/-- Statistics with the offload time of new device log lines, tag after tag. -/
def deviceOffload (stats : Statistics) (lines : LogLines) : Statistics :=
  lines.toList.foldl (fun stats e => (Offload.update .driver e.2 stats).2) stats

/-- All lines, tag after tag. -/
def allLines (lines : LogLines) : List String :=
  lines.toList.flatMap Prod.snd

/-- Folds a snapshot of the device log in. The lines are added tag after tag, so within one
    snapshot the log is not in the order of time. -/
def applyDevice (s : Session) (snapshot : DeviceSnapshot) : Session :=
  if snapshot.fresh then
    { s with
      stats := if s.framework.drivesTool then deviceOffload s.stats snapshot.lines else s.stats
      log := lastOnes logLimit (s.log ++ allLines snapshot.lines) }
  else s

/-- Takes the loads of the processor cores over. -/
def applyLoads (s : Session) (loads : Loads) : Session :=
  { s with loads }

/-- Forgets the results. -/
def clear (s : Session) : Session :=
  { s with stats := .zero, breakdown := ∅ }

/-- Starts a benchmark: earlier results are forgotten. -/
def track (s : Session) (handle : Handle) : Session :=
  -- What is pending stays: an earlier benchmark can still deliver.
  { s.clear with framework := handle.framework, pending := s.pending ++ [handle] }

/-- Changes the handle of the benchmark of a number, if it is pending. -/
def updateHandle (s : Session) (number : Nat) (f : Handle → Handle) : Session :=
  if s.completed ≤ number then { s with pending := s.pending.modify (number - s.completed) f }
  else s

/-- The worker sends the result of the benchmark of a number. -/
def deliver (s : Session) (number : Nat) (result : JobResult) : Session :=
  s.updateHandle number (·.deliver result)

/-- The worker of the benchmark of a number goes away. -/
def abandon (s : Session) (number : Nat) : Session :=
  s.updateHandle number Handle.abandon

/-- Statistics after a result. A benchmark without a usable one leaves them alone. -/
def summarized (runs : Nat) (stats : Statistics) (result : JobResult) : Statistics :=
  match result with
  | .ok output =>
    (Report.absorb output.lines output.framework runs stats).toOption.getD stats
  | .error _ => stats

/-- The session after a benchmark was consumed. -/
def settle (s : Session) (result : JobResult) : Session :=
  { s with stats := summarized s.runs s.stats result, completed := s.completed + 1 }

/-- Consumes benchmarks from some pending ones until one has no result yet. Those behind it have
    to wait, even if they have ended already. -/
def pollFrom : List Handle → Session → Nat × Session
  | [], s => (0, { s with pending := [] })
  | handle :: rest, s =>
    match handle.take? with
    | (some result, _) =>
      let (n, s') := pollFrom rest (s.settle result)
      (n + 1, s')
    | (none, looked) => (0, { s with pending := looked :: rest })

/-- Consumes the oldest benchmarks, up to the first without a result, and says how many
    there were. -/
def poll (s : Session) : Nat × Session :=
  pollFrom s.pending s

/-- The log never holds more than it may, once it was added to. -/
theorem length_log_le {snapshot : DeviceSnapshot} (h : snapshot.fresh = true) (s : Session) :
    (s.applyDevice snapshot).log.length ≤ logLimit := by
  rw [applyDevice, if_pos h]
  dsimp only
  exact length_lastOnes_le logLimit _

/-- Polling some handles neither loses nor invents a benchmark. -/
theorem pollFrom_total (handles : List Handle) (s : Session) :
    (pollFrom handles s).2.completed + (pollFrom handles s).2.pending.length
      = s.completed + handles.length := by
  induction handles generalizing s with
  | nil => rfl
  | cons handle rest ih =>
    rw [pollFrom]
    split
    · rename_i result _ _
      have hsettle : (s.settle result).completed = s.completed + 1 := rfl
      rw [ih, hsettle, List.length_cons]
      omega
    · rfl

/-- Polling neither loses nor invents a benchmark. -/
theorem poll_total (s : Session) :
    s.poll.2.completed + s.poll.2.pending.length = s.completed + s.pending.length :=
  pollFrom_total s.pending s

end Session

/-- What can happen to a session. -/
inductive SessionEvent where
  | kernel (snapshot : KernelSnapshot)
  | device (snapshot : DeviceSnapshot)
  /-- The loads of the processor cores. -/
  | loads (loads : Loads)
  /-- A benchmark of a framework is launched and tracked. -/
  | track (framework : Framework)
  /-- A worker sends a result. -/
  | deliver (number : Nat) (result : JobResult)
  /-- A worker goes away. -/
  | abandon (number : Nat)
  /-- Finished benchmarks are consumed. -/
  | poll
  /-- The results are forgotten. -/
  | clear

/-- The snapshot of the kernel log that the event folds in. -/
def SessionEvent.kernel? : SessionEvent → Option KernelSnapshot
  | .kernel snapshot => some snapshot
  | _ => none

/-- The snapshot of the device log that the event folds in. -/
def SessionEvent.device? : SessionEvent → Option DeviceSnapshot
  | .device snapshot => some snapshot
  | _ => none

namespace Session

/-- The session after an event. -/
def step (s : Session) : SessionEvent → Session
  | .kernel snapshot => s.applyKernel snapshot
  | .device snapshot => s.applyDevice snapshot
  | .loads loads => s.applyLoads loads
  | .track framework => s.track (.fresh framework)
  | .deliver number result => s.deliver number result
  | .abandon number => s.abandon number
  | .poll => s.poll.2
  | .clear => s.clear

/-- The session after some events. -/
def run (s : Session) (events : List SessionEvent) : Session :=
  events.foldl step s

end Session

end AccelMonitor
