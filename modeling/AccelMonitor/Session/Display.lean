import AccelMonitor.Session.State

/-!
# Display

The session in words.

Times are shown in milliseconds. Everything that the statistics hold is
microseconds of one run, except the offload total of the frameworks that keep
one, which is nanoseconds of all runs. The breakdown is shown as averages over
the runs. Of the counts only those are listed whose peak is not zero, with the
peak in parentheses.

## Main definitions

* `Display.milliseconds`: The milliseconds of a category.
* `Display.latencyLines`, `breakdownLines`, `countsText`, `loadsText`: The
  aggregates.
* `Display.statusLine`, `Display.resultLines`: What is printed of a session.
-/

namespace AccelMonitor

namespace Display

/-- The milliseconds of a category. -/
def milliseconds (stats : Statistics) (c : Latency) (framework : Framework) (runs : Nat) :
    Binary64 :=
  let value := Binary64.ofNat (stats.get c)
  if framework.drivesTool && c = .offload then
    (value.div (.ofNat (max runs 1))).div (.ofNat 1000000)
  else value.div (.ofNat 1000)

/-- The milliseconds of every category, in the order of display. -/
def latencies (stats : Statistics) (framework : Framework) (runs : Nat) :
    List (Latency × Binary64) :=
  Latency.all.map fun c => (c, milliseconds stats c framework runs)

/-- A line for each category. -/
def latencyLines (stats : Statistics) (framework : Framework) (runs : Nat) : List String :=
  (latencies stats framework runs).map fun e => e.1.name ++ ": " ++ e.2.fixed 3 ++ " ms"

/-- The average occurrence of a command over the runs. -/
def averageText (runs count : Nat) : String :=
  ((Binary64.ofNat count).div (.ofNat (max runs 1))).plain

/-- A line for each application, and below it a line for each of its commands. -/
def breakdownLines (breakdown : Breakdown) (runs : Nat) : List String :=
  breakdown.toList.flatMap fun app =>
    (app.1 ++ ":") :: app.2.toList.map fun e => "\t" ++ e.1 ++ ": " ++ averageText runs e.2

/-- The counts whose peak is not zero, with their peaks. -/
def listed (counts peaks : Counts) : List String :=
  (peaks.toList.filter fun e => 0 < e.2).map fun e =>
    e.1 ++ "=" ++ natText (counts.get e.1) ++ " (" ++ natText e.2 ++ ")"

/-- The counts in one line. -/
def countsText (counts peaks : Counts) : String :=
  match listed counts peaks with
  | [] => "no accelerator activity"
  | parts => Text.join " " parts

/-- The loads in one line, without decimal places. -/
def loadsText (loads : Loads) : String :=
  Text.join " " (loads.toList.map fun e => e.1 ++ "=" ++ e.2.fixed 0 ++ "%")

/-- The counts and the loads of a session after some seconds. -/
def statusLine (s : Session) (seconds : Nat) : String :=
  "[" ++ Text.padLeft 4 (natText seconds) ++ "s] " ++ countsText s.counts s.peaks ++ " | "
    ++ loadsText s.loads

/-- A line of a section. -/
def sectionLine (line : String) : String :=
  "  " ++ line

/-- The breakdown under its title, if there is any. -/
def breakdownSection (lines : List String) : List String :=
  if lines = [] then [] else "Breakdown" :: lines.map sectionLine

/-- The results of the benchmarks of a session. -/
def resultLines (s : Session) : List String :=
  ["", "Benchmark Summary (" ++ s.framework.name ++ ", " ++ natText s.runs ++ " runs)"]
    ++ (latencyLines s.stats s.framework s.runs).map sectionLine
    ++ breakdownSection (breakdownLines s.breakdown s.runs)

/-- Lines as they are printed. -/
def printed (lines : List String) : String :=
  Text.join "" (lines.map (· ++ "\n"))

end Display

end AccelMonitor
