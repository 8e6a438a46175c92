import AccelMonitor.Benchmark.Execution
import AccelMonitor.CommandLine.Reading
import AccelMonitor.Device.Bridge
import AccelMonitor.Device.Preflight
import AccelMonitor.Device.Property
import AccelMonitor.Device.Simulated
import AccelMonitor.Device.Switches
import AccelMonitor.Monitor.Files
import AccelMonitor.Monitor.Loop
import AccelMonitor.Monitor.Settings
import AccelMonitor.Session.Export

/-!
# The Program

A whole run, from the command line to the exit code.

The arguments are read and the device is found, by the preflight or by
simulation. Logging is turned on, and turned off again at the end however the run
ends. The readers are started, a benchmark is launched if one was asked for, and
the main loop runs. Afterwards the session is written to a file if one was named.
The first failure ends the run, and its wording decides about the exit code.

What happens when is not the program's to decide. The run here is the one of a
patient world: time passes only while the foreground pauses, a tenth of a second
each time, every reading is done at the moment it is due, and a benchmark ends as
soon as it is launched. How many pauses there are at most is given; after them
the user interrupts.

## Main definitions

* `ProgramFailure`: What ends a run.
* `exitCode`: The exit code of a failure's wording.
* `Live`: The main loop with its readers.
* `Environment`: What a run needs besides its arguments.
* `Outcome`: What a run leaves behind.
* `Program.run`: The run.
-/

namespace AccelMonitor

/-- What ends a run. -/
inductive ProgramFailure where
  /-- The host or the device is not fit. -/
  | preflight (failure : PreflightFailure)
  /-- A part of the monitor failed. -/
  | part (failure : Failure)
  /-- A part of the monitor failed while it did something. -/
  | during (activity : String) (failure : Failure)
  /-- The report's file could not be created. -/
  | create (fault : FileFault)
  /-- The report could not be written to its file. -/
  | write (fault : FileFault)
deriving DecidableEq

/-- The failure in words. -/
def ProgramFailure.message : ProgramFailure → String
  | preflight f => f.message
  | part f => f.account
  | during activity f => activity ++ ": " ++ f.account
  | create fault => "Failed to create session report file: " ++ fault.message
  | write fault => "Failed to export session report: " ++ fault.message

/-- The wording without capitals. -/
def lowered (message : String) : String :=
  String.ofList (message.toList.map Char.toLower)

/-- The exit code of a failure's wording: 77 for a missing permission, 2 for a missing
    argument and 1 for anything else. -/
def exitCode (message : String) : Nat :=
  if Text.holds "permission denied" (lowered message)
      || Text.holds "requires root" (lowered message) then 77
  else if Text.holds "missing required argument" (lowered message) then 2
  else 1

/-- How a run on a device ended. -/
structure Ending where
  /-- The lines that were printed. -/
  printed : List String
  /-- The lines of the error output. -/
  remarks : List String
  /-- What ended the run, if it did not end by itself. -/
  failure : Option ProgramFailure
  /-- The file that was written, with its text. -/
  file : Option (String × String)

/-- An ending by a failure, before anything was printed. -/
def Ending.failed (failure : ProgramFailure) : Ending :=
  ⟨[], [], some failure, none⟩

/-- The main loop with its readers. -/
structure Live where
  /-- The main loop. -/
  monitor : Monitor
  kernelReader : KernelReader
  deviceReader : DeviceReader
  /-- The meter of the processor's load. -/
  meter : LoadMeter

namespace Live

/-- A round of a poller, as steps of the monitor. -/
def pollerRound {α : Type} (toStep : PollerStep α → MonitorStep) (outcome : Option α) :
    List MonitorStep :=
  (Handoff.round outcome).map toStep

/-- The kernel log is read. -/
def pollKernel (settings : Settings) (l : Live) : Script Live :=
  (l.kernelReader.readCounted settings.fullLog settings.recencyThreshold).bind fun r =>
    .done { l with
      kernelReader := l.kernelReader.after r
      monitor := l.monitor.run (pollerRound .kernel (r.toOption.map KernelReader.published)) }

/-- The device log is read. -/
def pollDevice (l : Live) : Script Live :=
  l.deviceReader.readNext.bind fun r =>
    .done { l with
      deviceReader := l.deviceReader.after r
      monitor := l.monitor.run (pollerRound .device (r.toOption.map DeviceReader.published)) }

/-- The processor is looked at. -/
def pollLoads (l : Live) : Script Live :=
  l.meter.lookAgain.bind fun r =>
    .done { l with
      meter := l.meter.after r
      monitor := l.monitor.run (pollerRound .loads (r.toOption.map LoadMeter.loads)) }

/-- Does something if it is due. -/
def whenDue (interval time : Nat) (poll : Live → Script Live) (l : Live) : Script Live :=
  if time % interval = 0 then poll l else .done l

/-- Everything that is due at a time is read. -/
def pollAll (settings : Settings) (time : Nat) (l : Live) : Script Live :=
  (whenDue settings.kernelInterval time (pollKernel settings) l).bind fun l =>
    (whenDue settings.deviceInterval time pollDevice l).bind fun l =>
      whenDue settings.loadInterval time pollLoads l

/-- The foreground works until it pauses or leaves, for so many steps at most. -/
def work (moment : Moment) : Nat → Monitor → Monitor
  | 0, m => m
  | n + 1, m =>
    match m.phase with
    | .pausing | .leaving | .finished => m
    | _ => work moment n (m.foreground moment)

/-- The steps that a round of the foreground can take. -/
def roundSteps (m : Monitor) : Nat :=
  m.kernel.queue.items.length + m.device.queue.items.length + 5

/-- What the clock and the user say at a time in milliseconds. -/
def moment (duration time : Nat) (interrupted : Bool) : Moment :=
  { overdue := 0 < duration && duration * 1000 ≤ time
    statusDue := 0 < time && time % 2000 = 0
    interrupted, seconds := time / 1000 }

/-- A round of the foreground, with its pause. -/
def turn (moment : Moment) (m : Monitor) : Monitor :=
  let worked := work moment (roundSteps m) m
  if worked.phase = .pausing then worked.foreground moment else worked

/-- The loop from a time on, with so many pauses before the interruption. The time at its end
    comes with it. Each turn lets the pollers read whatever is due and then goes through one
    round of the foreground. -/
def loop (settings : Settings) (duration : Nat) : Nat → Nat → Live → Script (Live × Nat)
  | pauses, time, l =>
    (pollAll settings time l).bind fun l =>
      let m := turn (moment duration time (pauses = 0)) l.monitor
      match m.phase, pauses with
      | .leaving, _ | _, 0 => .done ({ l with monitor := m }, time)
      | _, n + 1 => loop settings duration n (time + 100) { l with monitor := m }

/-- The pollers see the flag and the foreground finishes. -/
def close (m : Monitor) (moment : Moment) : Monitor :=
  m.run [.kernel .check, .device .check, .loads .check, .foreground moment]

end Live

/-- What a run needs besides its arguments. -/
structure Environment (σ : Type) where
  host : Host σ
  /-- What becomes of the wish to write to a path. -/
  access : String → FileAccess
  /-- Which model each process runs. -/
  choice : Choice
  /-- How many pauses there are before the user interrupts. -/
  pauses : Nat
  time : String

/-- What a run leaves behind. -/
structure Outcome where
  exit : Nat
  /-- The standard output. -/
  stdout : String
  /-- The error output. -/
  stderr : String
  /-- The file that was written, with its text. -/
  file : Option (String × String)
deriving DecidableEq

namespace Program

/-- The program's name. -/
def name : String :=
  "atop"

/-- The lines that introduce a run. -/
def header (device : String) (framework : Framework) : List String :=
  [name ++ " v" ++ programVersion, "device: " ++ device, "framework: " ++ framework.name]

/-- The line that announces a benchmark. -/
def announcement (settings : Settings) : String :=
  "benchmark: " ++ settings.framework.name ++ " x" ++ natText settings.processes ++ " ("
    ++ natText settings.tool.runs ++ " runs)"

/-- Runs with the kernel's logging on, if that is wanted. A run that cannot turn it on does not
    begin, and what it had turned on by then stays on. -/
def withKernelLogging (wanted : Bool) (body : Script Ending) : Script Ending :=
  if wanted then
    KernelLogging.enable.bind fun r =>
      match r with
      | .error f => .done (.failed (.during "Failed to enable kernel logging" f))
      -- The guard is released however the body ends.
      | .ok g => body.bind fun e => g.release.bind fun _ => .done e
  else body

/-- Runs with the driver's logging on, if that is wanted. -/
def withDriverLogging (wanted : Bool) (body : Script Ending) : Script Ending :=
  if wanted then
    DriverLogging.enable.script.bind fun r =>
      match r with
      | .error f => .done (.failed (.during "Failed to enable driver logging" f))
      | .ok g => body.bind fun e => g.release.bind fun _ => .done e
  else body

/-- The models that a benchmark can run. -/
def candidates (settings : Settings) : Attempt ProgramFailure (List String) :=
  ExceptT.mk ((Models.available settings.framework).script.bind fun r =>
    .done (match r with
      | .ok models => .ok (Models.suitable models settings.framework settings.tool.delegate)
      | .error f =>
        .error (.during ("Failed to list " ++ settings.framework.name ++ " models") f)))

/-- The job of a benchmark. -/
def job (settings : Settings) (choice : Choice) : Attempt ProgramFailure Job := do
  let models ← candidates settings
  match Job.plan settings.framework models settings.tool settings.netRun settings.processes
    choice with
  | .ok j => return j
  | .error f => throw (.part f)

/-- The monitor with a benchmark that was launched and has ended. -/
def launch (settings : Settings) (choice : Choice) (m : Monitor) :
    Script (Except ProgramFailure Monitor) :=
  (job settings choice).script.bind fun r =>
    match r with
    | .error f => .done (.error f)
    | .ok j => j.script.bind fun result =>
      .done (.ok (((m.tell (.track j.framework)).print [announcement settings]).tell
        (.deliver 0 result)))

/-- The monitor with a benchmark, if one was asked for. -/
def begin (a : Arguments) (settings : Settings) (choice : Choice) :
    Script (Except ProgramFailure Monitor) :=
  let m := Monitor.start a.quiet a.exitOnComplete (.start settings.framework settings.tool.runs)
    settings.queueCapacity
  if a.benchmark then launch settings choice m else .done (.ok m)

/-- A number of milliseconds in seconds. -/
def seconds (time : Nat) : Binary64 :=
  (Binary64.ofNat time).div (.ofNat 1000)

/-- The lines that close the error output. -/
def farewell (m : Monitor) (time : Nat) : List String :=
  if m.quiet then []
  else ["", m.reason.text ++ ": " ++ (seconds time).fixed 1 ++ "s, " ++ natText m.session.completed
    ++ " benchmarks completed, " ++ natText m.session.pending.length ++ " pending"]

/-- The ending of a loop that was left, with the session written to a file if one was
    named. -/
def conclude {σ : Type} (env : Environment σ) (a : Arguments) (device : String) (m : Monitor)
    (time : Nat) : Ending :=
  let remarks := farewell m time
  match a.exportPath with
  | none => ⟨m.printed, remarks, none, none⟩
  | some path =>
    match env.access path with
    | .refused fault => ⟨m.printed, remarks, some (.create fault), none⟩
    | .broken fault => ⟨m.printed, remarks, some (.write fault), none⟩
    | .granted =>
      let text := (m.session.document ⟨device, seconds time, env.time⟩).text
      ⟨(m.print ["saved: " ++ path]).printed, remarks, none, some (path, text)⟩

/-- The run of the readers and of the main loop. -/
def monitored {σ : Type} (env : Environment σ) (a : Arguments) (settings : Settings)
    (device : String) : Script Ending :=
  (KernelReader.launch settings.kernelProbes settings.utilization).bind fun r =>
    match r, DeviceReader.start settings.logTags with
    | .error f, _ => .done (.failed (.during "Failed to start kernel log streaming" f))
    | _, .error f => .done (.failed (.part f))
    | .ok kernelReader, .ok deviceReader =>
      (begin a settings env.choice).bind fun r =>
        match r with
        | .error f => .done (.failed f)
        | .ok monitor =>
          (Live.loop settings a.duration env.pauses 0
            { monitor, kernelReader, deviceReader, meter := .start }).bind fun l =>
            .done (conclude env a device
              (Live.close l.1.monitor (Live.moment a.duration l.2 false)) l.2)

/-- The run on a device, without its introduction. -/
def onDevice {σ : Type} (env : Environment σ) (a : Arguments) (settings : Settings)
    (device : String) : Script Ending :=
  withKernelLogging (!a.noKernelLogging)
    (withDriverLogging a.driverLogging (monitored env a settings device))

/-- The run on a device, with its introduction. -/
def introduced {σ τ : Type} (env : Environment σ) (a : Arguments) (settings : Settings)
    (device : String) (shell : Shell τ) (s : τ) : Ending × τ :=
  let (e, s') := (onDevice env a settings device).run shell s
  let opening := if a.quiet then [] else header device settings.framework
  ({ e with printed := opening ++ e.printed }, s')

/-- The run of some arguments. -/
def ofArguments {σ : Type} (env : Environment σ) (a : Arguments) (s : σ) : Ending × σ :=
  match Settings.ofArguments a with
  | .error f => (.failed (.part f), s)
  | .ok settings =>
    if a.simulated then
      ((introduced env a settings "sim" Recording.shell Simulated.device).1, s)
    else
      match Preflight.check.perform env.host.shell s with
      | (.error f, s') => (.failed (.preflight f), s')
      | (.ok serial, s') => introduced env a settings serial (env.host.device serial) s'

/-- What a failure adds to the error output. -/
def errorLines (failure : Option ProgramFailure) : List String :=
  failure.toList.map fun f => "error: " ++ f.message

/-- The outcome of an ending. -/
def outcome (e : Ending) : Outcome :=
  { exit := (e.failure.map fun f => exitCode f.message).getD 0
    stdout := Display.printed e.printed
    stderr := Display.printed (e.remarks ++ errorLines e.failure)
    file := e.file }

/-- The outcome of a command line that does not lead to a run. -/
def refused (fault : UsageFault) : Outcome :=
  match fault with
  | .versionWanted => ⟨0, name ++ " " ++ programVersion ++ "\n", "", none⟩
  | .helpWanted => ⟨0, usage name, "", none⟩
  | other => ⟨2, "", "error: " ++ other.message ++ "\n", none⟩

/-- The run of a command line. -/
def run {σ : Type} (env : Environment σ) (words : List String) (s : σ) : Outcome × σ :=
  match Arguments.ofWords words with
  | .error fault => (refused fault, s)
  | .ok a =>
    let (e, s') := ofArguments env a s
    (outcome e, s')

end Program

end AccelMonitor
