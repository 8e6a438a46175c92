import AccelMonitor.Failure
import AccelMonitor.Pattern.Table
import AccelMonitor.Probe
import AccelMonitor.Statistics
import AccelMonitor.Text.Pieces

/-!
# Offload Time

How long the benchmark's own processes spent inside drivers.

Three kinds of line say so. A timing line of the kernel log gives the time of a
call into a driver, or of the part of it spent on the accelerator, which is then
taken off again; a line of the graphics driver gives the time of a command; and
a line of the device log gives the time of a call into the neural network
driver. Each kind has a pattern, and a line that fits it is a sample if it comes
from a benchmark process and its seconds can be read.

The samples of a call are summed. A sum that is negative says nothing and is
dropped, any other is added to the statistics in whole nanoseconds, where the
total stops at the largest 64-bit number.

## Main definitions

* `Offload.belongsToBenchmark`: The process belongs to a benchmark.
* `OffloadSource`: The three kinds of line.
* `Offload.sample?`: The signed seconds of a line.
* `Offload.update`: Adds what some lines say to the statistics.

## Theorems

* `update_frame`: Only the offload total can change.
* `update_none`: Without samples nothing changes.
-/

namespace AccelMonitor

/-- The kinds of line that give offload time. -/
inductive OffloadSource where
  /-- Timing lines of the kernel log. -/
  | kernel
  /-- Lines of the graphics driver in the kernel log. -/
  | gpu
  /-- Driver lines of the device log. -/
  | driver
deriving DecidableEq

/-- What became of the samples of a call. A sum below zero adds nothing and is reported, and no
    samples at all are told from samples that come to zero. -/
inductive OffloadUpdate where
  /-- So many nanoseconds were added. -/
  | applied (nanoseconds : Nat)
  | negative (seconds : Binary64)
  /-- There were no samples. -/
  | noSamples
deriving DecidableEq

namespace Offload

/-- How the names of benchmark processes begin. -/
def benchmarkProcesses : List String :=
  ["benchmark_model", "snpe-net-run", "tflite_app", "org.tensorflow."]

/-- The process belongs to a benchmark. Blanks around the name do not count. -/
def belongsToBenchmark (name : String) : Bool :=
  benchmarkProcesses.any fun p => Text.startsWith p (Text.trim name)

/-- The character is not a closing parenthesis. -/
def isInside (c : Char) : Bool :=
  c != ')'

/-- The application that a line is about: `(app: name)`, as group 1. -/
def appPattern : Pattern :=
  .all [.str "(app:", .blanks, .group 1 (.few isInside), .blanks, .str ")"]

/-- A plus or a minus sign. -/
def isSign (c : Char) : Bool :=
  c == '-' || c == '+'

/-- The letter in front of an exponent. -/
def isExponentMark (c : Char) : Bool :=
  c == 'e' || c == 'E'

/-- Seconds in decimal notation, as a group. -/
def secondsPattern (group : Nat) : Pattern :=
  .group group (.all [.optional (.one isSign), .digits1, .optional (.all [.str ".", .digits1]),
    .optional (.all [.one isExponentMark, .optional (.one isSign), .digits1])])

/-- A timing line: `TIME subsystem: (app: name) (ioctl) seconds`, with the word in the
    second parentheses as group 2 and the seconds as group 3. -/
def timingPattern : Pattern :=
  .all [.str "TIME", .blanks1, .some1 Pattern.isNameChar, .str ":", .blanks, appPattern, .blanks,
    .str "(", .group 2 (.either (.str "ioctl") (.str "invoke")), .str ")", .blanks,
    secondsPattern 3]

/-- A line of the graphics driver: `IOCTL kgsl: (app: name) … (time: seconds)`, with the
    seconds as group 2. -/
def graphicsPattern : Pattern :=
  .all [.str "IOCTL", .blanks1, .str "kgsl:", .blanks, appPattern, .many Pattern.isInLine,
    .str "(time:", .blanks, secondsPattern 2, .blanks, .str ")"]

/-- A driver line: `(app: name) (driver) seconds`, with the seconds as group 2. -/
def driverPattern : Pattern :=
  .all [appPattern, .blanks, .str "(driver)", .blanks, secondsPattern 2]

/-- The seconds that a text writes. -/
def seconds? (s : String) : Option Binary64 :=
  (Binary64.read s).toOption

/-- The signed seconds of a matched line of a kind. -/
def sampleOf (source : OffloadSource) (g : Groups) : Option Binary64 :=
  match source with
  | .kernel => (seconds? (g.get 3)).map fun t => if g.get 2 = "ioctl" then t else t.neg
  | .gpu | .driver => seconds? (g.get 2)

/-- The pattern of a kind of line. -/
def pattern : OffloadSource → Pattern
  | .kernel => timingPattern
  | .gpu => graphicsPattern
  | .driver => driverPattern

/-- The signed seconds of a line, if it is a sample. -/
def sample? (source : OffloadSource) (line : String) : Option Binary64 :=
  ((pattern source).find line.toList).bind fun g =>
    if belongsToBenchmark (g.get 1) then sampleOf source g else none

/-- The sum of some seconds, added one after the other. -/
def total (samples : List Binary64) : Binary64 :=
  samples.foldl Binary64.add .zero

/-- The nanoseconds in some seconds, to the nearest one. -/
def nanoseconds (t : Binary64) : Nat :=
  (t.mul (.ofNat 1000000000)).roundBelow Text.limit64

/-- The sum of two totals, at most the largest 64-bit number. -/
def addTotals (a b : Nat) : Nat :=
  min (a + b) (Text.limit64 - 1)

/-- What samples do to the statistics. The sum is rounded to whole nanoseconds once, and the
    total stops at the largest number that its field can hold. -/
def applySamples (samples : List Binary64) (stats : Statistics) : OffloadUpdate × Statistics :=
  if samples = [] then (.noSamples, stats)
  else if (total samples).lt .zero then (.negative (total samples), stats)
  else
    let added := nanoseconds (total samples)
    (.applied added, { stats with offload := addTotals stats.offload added })

/-- Adds what some lines say to the statistics. -/
def update (source : OffloadSource) (lines : List String) (stats : Statistics) :
    OffloadUpdate × Statistics :=
  applySamples (lines.filterMap (sample? source)) stats

/-- Only the offload total can change. -/
theorem update_frame (source : OffloadSource) (lines : List String) (stats : Statistics)
    (c : Latency) (h : c ≠ .offload) : (update source lines stats).2.get c = stats.get c := by
  simp only [update, applySamples]
  split
  · rfl
  · split
    · rfl
    · cases c with
      | offload => exact absurd rfl h
      | preproc | postproc | inference | delegation | init => rfl

/-- Without samples nothing changes. -/
theorem update_none {source : OffloadSource} {lines : List String} (stats : Statistics)
    (h : ∀ l ∈ lines, sample? source l = none) :
    update source lines stats = (.noSamples, stats) := by
  rw [update, applySamples, if_pos (List.filterMap_eq_nil_iff.mpr h)]

end Offload

end AccelMonitor
