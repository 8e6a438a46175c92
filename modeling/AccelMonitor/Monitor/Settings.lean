import AccelMonitor.Benchmark.Options
import AccelMonitor.CommandLine.Arguments
import AccelMonitor.Handoff.Queue
import AccelMonitor.Probe

/-!
# Settings

What the arguments mean for the parts of the monitor.

The driver's timing is asked of the benchmark tool whenever the driver's logging
is on. The options of the neural processing tools only exist for some delegates;
for the others they are missing, which is a failure only if a benchmark of those
tools is to be launched.

## Main definitions

* `Settings`: What the parts of the monitor need.
* `Settings.ofArguments`: The settings of some arguments.

## Theorems

* `ofArguments_isOk`: Without a benchmark there are always settings.
-/

namespace AccelMonitor

/-- What the parts of the monitor need. -/
structure Settings where
  kernelProbes : List KernelProbe
  /-- The probe whose lines are counted by driver. -/
  utilization : KernelProbe
  logTags : List LogTag
  /-- Count all new lines and not only recent ones. -/
  fullLog : Bool
  /-- The seconds within which a line is recent. -/
  recencyThreshold : Binary64
  /-- The milliseconds between two readings of the kernel log. -/
  kernelInterval : Nat
  /-- The milliseconds between two readings of the device log. -/
  deviceInterval : Nat
  /-- The milliseconds between two looks at the processor. -/
  loadInterval : Nat
  queueCapacity : Nat
  poolSize : Nat
  framework : Framework
  processes : Nat
  tool : ToolOptions
  /-- The options of the neural processing tools, if the delegate has any. -/
  netRun : Option NetRunOptions
  /-- The seed of the choice of models. -/
  seed : Option Nat
deriving DecidableEq

namespace Settings

/-- The options of the benchmark tool. -/
def toolOptions (a : Arguments) : ToolOptions :=
  { threads := a.threads, warmupRuns := a.warmupRuns, runs := a.runs, delegate := a.delegate
    cpuFallback := a.cpuFallback, timeDriver := a.driverLogging, preference := a.preference }

/-- The options of the neural processing tools, which have to exist if a benchmark of
    those tools is to be launched. -/
def netRunOptions (a : Arguments) : Except Failure (Option NetRunOptions) :=
  match NetRunOptions.of? a.delegate a.cpuFallback with
  | .ok o => .ok (some o)
  | .error f => if a.benchmark && a.framework = .snpe then .error f else .ok none

/-- The settings of some arguments. -/
def ofArguments (a : Arguments) : Except Failure Settings :=
  (netRunOptions a).map fun netRun =>
    { kernelProbes := KernelProbe.all, utilization := .ioctl, logTags := LogTag.all
      fullLog := a.fullLog, recencyThreshold := a.recencyThreshold
      kernelInterval := 2000, deviceInterval := 1000, loadInterval := 1000
      queueCapacity := a.queueCapacity, poolSize := a.poolSize
      framework := a.framework, processes := a.processes
      tool := toolOptions a, netRun, seed := a.seed }

/-- Without a benchmark there are always settings. -/
theorem ofArguments_isOk {a : Arguments} (h : a.benchmark = false) :
    ∃ s, ofArguments a = .ok s := by
  rw [ofArguments, netRunOptions, h]
  split
  · exact ⟨_, rfl⟩
  · exact ⟨_, rfl⟩

end Settings

end AccelMonitor
