import AccelMonitor.Text.Quoted

/-!
# Probes and Tags

The kinds of line that the instrumented drivers write.

The kernel log carries three kinds of probe line, told apart by a keyword behind
the time stamp. The device log carries lines of many tags, of which two are
watched. Both sets are closed, and a name outside them is refused by the reader
of names.

## Main definitions

* `KernelProbe`: The kinds of kernel log line.
* `LogTag`: The watched tags of the device log.

## Theorems

* `KernelProbe.ofKeyword?_keyword`: A probe is read back from its keyword.
* `LogTag.ofName?_name`: A tag is read back from its name.
-/

namespace AccelMonitor

/-- A kind of kernel log line that the instrumented drivers write. -/
inductive KernelProbe where
  /-- An application asked a driver for something. -/
  | ioctl
  /-- A subsystem reports how long a call took. -/
  | time
  /-- A driver remarks on something an application did. -/
  | info
deriving DecidableEq

namespace KernelProbe

/-- Every probe, in the order in which they are configured by default. -/
def all : List KernelProbe :=
  [ioctl, time, info]

/-- The word behind the time stamp of the probe's lines. -/
def keyword : KernelProbe → String
  | ioctl => "IOCTL"
  | time => "TIME"
  | info => "INFO"

/-- The probe of a keyword. -/
def ofKeyword? (s : String) : Option KernelProbe :=
  all.find? fun p => p.keyword == s

/-- A probe is read back from its keyword. -/
theorem ofKeyword?_keyword (p : KernelProbe) : ofKeyword? p.keyword = some p := by
  cases p <;> decide

end KernelProbe

/-- A watched tag of the device log. -/
inductive LogTag where
  /-- The runtime that hands models to drivers. -/
  | executionBuilder
  /-- The benchmark tools. -/
  | tflite
deriving DecidableEq

namespace LogTag

/-- Every tag, in the order in which they are configured by default. -/
def all : List LogTag :=
  [executionBuilder, tflite]

/-- The tag as it stands in a log line. -/
def name : LogTag → String
  | executionBuilder => "ExecutionBuilder"
  | tflite => "tflite"

/-- The tag of a name. -/
def ofName? (s : String) : Option LogTag :=
  all.find? fun t => t.name == s

/-- A tag is read back from its name. -/
theorem ofName?_name (t : LogTag) : ofName? t.name = some t := by
  cases t <;> decide

end LogTag

end AccelMonitor
