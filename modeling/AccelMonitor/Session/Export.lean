import AccelMonitor.Document
import AccelMonitor.Session.Display

/-!
# Session Documents

A session as one document, to be read by another program.

The statistics are written twice: as they are kept, and in milliseconds.

## Main definitions

* `Occasion`: What the document says about the run besides the session.
* `Session.document`: The document of a session.
-/

namespace AccelMonitor

/-- The version of the program. -/
def programVersion : String :=
  "0.2.0"

/-- What a document says about the run besides the session. -/
structure Occasion where
  /-- The serial number of the device. -/
  device : String
  /-- How long the run took, in seconds. -/
  duration : Binary64
  /-- When the document was made. -/
  time : String

namespace Session

/-- The values of a table. -/
def tableDocument {β : Type} (f : β → Document) (t : Table β) : Document :=
  .object (t.toList.map fun e => (e.1, f e.2))

/-- Counts by name. -/
def countsDocument (c : Counts) : Document :=
  tableDocument .whole c

/-- The statistics as they are kept. -/
def statsDocument (s : Statistics) : Document :=
  .object (s.entries.map fun e => (e.1.name, .whole e.2))

/-- The statistics in milliseconds. -/
def latencyDocument (s : Session) : Document :=
  .object ((Display.latencies s.stats s.framework s.runs).map fun e => (e.1.name, .number e.2))

/-- The fields of the document of a session. -/
def fields (s : Session) (occasion : Occasion) : List (String × Document) :=
  [("version", .string programVersion),
    ("device", .string occasion.device),
    ("framework", .string s.framework.name),
    ("runs", .whole s.runs),
    ("duration_secs", .number occasion.duration),
    ("generated_at", .string occasion.time),
    ("completed_benchmarks", .whole s.completed),
    ("stats", statsDocument s.stats),
    ("latency_ms", latencyDocument s),
    ("interactions", countsDocument s.counts),
    ("max_interactions", countsDocument s.peaks),
    ("breakdown", tableDocument countsDocument s.breakdown),
    ("cpu", tableDocument .number s.loads)]

/-- The document of a session. -/
def document (s : Session) (occasion : Occasion) : Document :=
  .object (s.fields occasion)

end Session

end AccelMonitor
