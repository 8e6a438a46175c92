import AccelMonitor.Counts
import AccelMonitor.DeviceLog.Time
import AccelMonitor.Pattern.Basic
import AccelMonitor.Probe
import AccelMonitor.Shell.Script
import AccelMonitor.Text.Pieces

/-!
# Reading the Device Log Incrementally

What is new in the device log since the last look.

The device log can be asked for the lines from a time on, that time included. A
reader therefore remembers the first millisecond after the newest line it was
given, its *watermark*, and puts it into the next command. Until a line with a
time has come, there is no watermark, the whole log is asked for, and what comes
is not counted as new.

The log is in the order of time, so the newest line is the last one whose time
can be read. Lines are sorted by tag. A line whose time cannot be read is kept
but moves nothing.

## Main definitions

* `LogLines`: Lines by tag.
* `DeviceReader`: The state of a reader.
* `DeviceReader.command`: The command for the next reading.
* `DeviceReader.tagOf`: The watched tag that a line carries.
* `DeviceReader.next`: The lines of a reading.
* `DeviceSnapshot`: What a reading publishes.
-/

namespace AccelMonitor

/-- Lines by tag, oldest first. -/
abbrev LogLines := Table (List String)

/-- The state of a reader of the device log. The device itself selects the lines that are new,
    from the watermark on, so nothing of an earlier reading is kept but this time. -/
structure DeviceReader where
  tags : List LogTag
  /-- The first millisecond after the newest line. -/
  watermark : Option LogTime
  /-- The lines of the last reading. -/
  lines : LogLines
  /-- The last reading brought something new. -/
  fresh : Bool

/-- What a reading publishes. -/
structure DeviceSnapshot where
  lines : LogLines
  /-- The lines are new. -/
  fresh : Bool

namespace DeviceReader

/-- No lines for each watched tag. -/
def noLines (tags : List LogTag) : LogLines :=
  Table.ofList (tags.map fun t => (t.name, []))

/-- A reader that has seen nothing. There has to be a tag. -/
def start (tags : List LogTag) : Except Failure DeviceReader :=
  if tags = [] then .error .noProbes
  else .ok { tags, watermark := none, lines := noLines tags, fresh := false }

/-- The time stamp of the watermark, empty if there is none. -/
def watermarkText (r : DeviceReader) : String :=
  match r.watermark with
  | none => ""
  | some t => t.text

/-- The command for the next reading. Without a watermark it asks for the whole log, which holds
    lines from before the session. -/
def command (r : DeviceReader) : String :=
  let filter := Text.joinWith [' '] (r.tags.map fun t => (t.name ++ ":V").toList)
  let whole := "logcat -d -v threadtime -s " ++ String.ofList filter
  match r.watermark with
  | none => whole
  | some t => whole ++ " -T '" ++ t.text ++ "'"

/-- The letters of the levels of a line. -/
def isLevel (c : Char) : Bool :=
  ['V', 'D', 'I', 'W', 'E', 'F', 'S'].contains c

/-- One of the watched tags' names. -/
def tagNames (tag : LogTag) (tags : List LogTag) : Pattern :=
  .anyOf (.str tag.name) (tags.map fun t => .str t.name)

/-- A level, a watched tag and a colon. -/
def tagPattern (tag : LogTag) (tags : List LogTag) : Pattern :=
  .all [.one Text.isBlank, .one isLevel, .blanks1, .group 1 (tagNames tag tags), .blanks, .str ":"]

/-- The name of the watched tag that a line carries. -/
def tagOf (tags : List LogTag) (line : String) : Option String :=
  match tags with
  | [] => none
  | t :: ts => ((tagPattern t ts).search line.toList).map fun g => g.get 1

/-- The time of a line, if it starts with the time stamp of one. -/
def timeOf (line : String) : Option LogTime :=
  LogTime.ofStamp? (LogTime.stampList line.toList)

/-- The lines that carry a watched tag, with it. -/
def tagged (tags : List LogTag) (lines : List String) : List (String × String) :=
  lines.filterMap fun line => (tagOf tags line).map fun tag => (tag, line)

/-- Adds a line to those of its tag. -/
def add (table : LogLines) (entry : String × String) : LogLines :=
  table.insert entry.1 (table[entry.1]?.getD [] ++ [entry.2])

/-- The time of the last line that has one. -/
def lastTime (entries : List (String × String)) : Option LogTime :=
  (entries.filterMap fun e => timeOf e.2).getLast?

/-- Some tag has a line. -/
def anyLine (lines : LogLines) : Bool :=
  lines.toList.any fun e => !e.2.isEmpty

/-- The reader after the lines of a reading. Lines are filed by their tags, in their order. A
    line without a watched tag is dropped, and the watermark does not take notice of it. -/
def absorb (r : DeviceReader) (output : List String) : DeviceReader :=
  let entries := tagged r.tags output
  let lines := entries.foldl add (noLines r.tags)
  { r with
    lines
    watermark := ((lastTime entries).map LogTime.next).orElse fun _ => r.watermark
    -- Without a watermark the lines may be older than the session.
    fresh := r.watermark.isSome && anyLine lines }

/-- The reader after a reading. -/
def next (r : DeviceReader) (answer : Answer) : Except Failure DeviceReader :=
  match answer with
  | .error f => .error (.spawn f)
  | .ok output => .ok (r.absorb output)

/-- The reader after a reading that may have failed. -/
def after (r : DeviceReader) (reading : Except Failure DeviceReader) : DeviceReader :=
  reading.toOption.getD r

/-- Reads the log once more. -/
def readNext (r : DeviceReader) : Script (Except Failure DeviceReader) :=
  .ask r.command fun answer => .done (r.next answer)

/-- What the reader publishes. -/
def published (r : DeviceReader) : DeviceSnapshot :=
  ⟨r.lines, r.fresh⟩

end DeviceReader

end AccelMonitor
