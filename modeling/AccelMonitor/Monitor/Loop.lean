import AccelMonitor.Handoff.Poller
import AccelMonitor.Session.Display

/-!
# The Main Loop

The foreground, its three pollers and its benchmarks, step by step.

The foreground goes round and round. It looks whether its time is up, empties
the queues of the kernel log and of the device log one snapshot at a time, takes
the newest loads, consumes finished benchmarks, and pauses. It leaves the loop
when the time is up, when all benchmarks have been consumed and it was told not
to wait for more, or when it is interrupted while it pauses. Leaving raises the
flag that stops the pollers; once all three are gone the foreground is finished.

Pollers and workers act in between at any time, so the whole is a transition
system, whose runs are lists of steps. What time it is comes from outside. A
step that is not possible changes nothing. The events that the session was told
are kept as history, and so is what was printed.

## Main definitions

* `LoopPhase`: Where in its round the foreground is.
* `Monitor`: The state of all sides.
* `MonitorStep`, `Monitor.step`, `Monitor.run`: What can happen, and what it does.

## Theorems

* `session_tell`: The session is told what the history says.
-/

namespace AccelMonitor

/-- Where in its round the foreground is. It goes through the phases in this order and begins
    again, and it looks at queues only in the first half of a round. -/
inductive LoopPhase where
  /-- About to look whether the time is up. -/
  | watching
  /-- Emptying the queue of the kernel log. -/
  | kernel
  /-- Emptying the queue of the device log. -/
  | device
  /-- About to take the newest loads. -/
  | loads
  /-- About to consume finished benchmarks. -/
  | benchmarks
  | pausing
  /-- Waiting for the pollers to be gone. -/
  | leaving
  /-- Out of the loop. -/
  | finished
deriving DecidableEq

/-- Why the foreground left the loop. -/
inductive ExitReason where
  | interrupted
  | timeUp
  /-- All benchmarks had been consumed. -/
  | complete
deriving DecidableEq

/-- The reason in words. -/
def ExitReason.text : ExitReason → String
  | interrupted => "interrupted"
  | timeUp => "duration limit reached"
  | complete => "benchmarks complete"

/-- What the clock and the user say at a step of the foreground. -/
structure Moment where
  /-- The time is up. -/
  overdue : Bool
  /-- A line about the state is due. -/
  statusDue : Bool
  interrupted : Bool
  /-- The seconds since the loop began. -/
  seconds : Nat
deriving DecidableEq

/-- The state of the foreground, the pollers and the benchmarks. The pollers go on while the
    foreground works, so a queue can be filled again right after it was emptied. -/
structure Monitor where
  /-- Print nothing. -/
  quiet : Bool
  /-- Leave when all benchmarks have been consumed. -/
  exitOnComplete : Bool
  /-- What the monitor knows. -/
  session : Session
  /-- What the session was told, oldest first. -/
  told : List SessionEvent
  /-- The hand-off of the kernel log. -/
  kernel : Handoff KernelSnapshot
  /-- The hand-off of the device log. -/
  device : Handoff DeviceSnapshot
  /-- The hand-off of the loads. -/
  loads : Handoff Loads
  /-- Where the foreground is. -/
  phase : LoopPhase
  /-- Why it leaves. -/
  reason : ExitReason
  /-- The lines that were printed, oldest first. -/
  printed : List String

/-- What can happen. -/
inductive MonitorStep where
  /-- The poller of the kernel log does something. -/
  | kernel (step : PollerStep KernelSnapshot)
  /-- The poller of the device log does something. -/
  | device (step : PollerStep DeviceSnapshot)
  /-- The poller of the loads does something. -/
  | loads (step : PollerStep Loads)
  /-- A worker sends the result of a benchmark. -/
  | deliver (number : Nat) (result : JobResult)
  /-- The foreground does its next thing. -/
  | foreground (moment : Moment)

namespace Monitor

/-- A loop that is about to begin. -/
def start (quiet exitOnComplete : Bool) (session : Session) (capacity : Nat) : Monitor :=
  { quiet, exitOnComplete, session, told := [], kernel := .start capacity
    device := .start capacity, loads := .start capacity, phase := .watching
    reason := .interrupted, printed := [] }

/-- Tells the session something. -/
def tell (m : Monitor) (event : SessionEvent) : Monitor :=
  { m with session := m.session.step event, told := m.told ++ [event] }

/-- Prints some lines, unless the monitor is quiet. -/
def print (m : Monitor) (lines : List String) : Monitor :=
  if m.quiet then m else { m with printed := m.printed ++ lines }

/-- Leaves the loop and raises the flag that stops the pollers. -/
def leave (m : Monitor) (reason : ExitReason) : Monitor :=
  { m with
    reason, phase := .leaving, kernel := m.kernel.raiseExit, device := m.device.raiseExit
    loads := m.loads.raiseExit }

/-- Takes the next snapshot of the kernel log, or goes on if there is none. -/
def takeKernel (m : Monitor) : Monitor :=
  match m.kernel.queue.pop.1 with
  | some snapshot => { m with kernel := m.kernel.pop }.tell (.kernel snapshot)
  | none => { m with phase := .device }

/-- Takes the next snapshot of the device log, or goes on if there is none. -/
def takeDevice (m : Monitor) : Monitor :=
  match m.device.queue.pop.1 with
  | some snapshot => { m with device := m.device.pop }.tell (.device snapshot)
  | none => { m with phase := .loads }

/-- Takes the newest loads. -/
def takeLoads (m : Monitor) : Monitor :=
  let m' := { m with loads := m.loads.drain, phase := .benchmarks }
  match m.loads.queue.drain.1 with
  | some loads => m'.tell (.loads loads)
  | none => m'

/-- Consumes finished benchmarks, and leaves if that was the last thing to wait for. -/
def takeBenchmarks (m : Monitor) : Monitor :=
  let polled := m.tell .poll
  let shown :=
    if m.session.poll.1 = 0 then polled else polled.print (Display.resultLines polled.session)
  -- This holds at once if no benchmark was launched.
  if m.exitOnComplete && shown.session.pending.isEmpty then shown.leave .complete
  else { shown with phase := .pausing }

/-- Pauses, unless it is interrupted. -/
def pause (m : Monitor) (moment : Moment) : Monitor :=
  let shown :=
    if moment.statusDue then m.print [Display.statusLine m.session moment.seconds] else m
  if moment.interrupted then shown.leave .interrupted else { shown with phase := .watching }

/-- All pollers are gone. -/
def pollersGone (m : Monitor) : Bool :=
  !m.kernel.isRunning && !m.device.isRunning && !m.loads.isRunning

/-- The lines that are printed at the end. -/
def closingLines (m : Monitor) : List String :=
  if m.session.completed = 0 then [] else Display.resultLines m.session

/-- The foreground does its next thing. -/
def foreground (m : Monitor) (moment : Moment) : Monitor :=
  match m.phase with
  | .watching => if moment.overdue then m.leave .timeUp else { m with phase := .kernel }
  | .kernel => m.takeKernel
  | .device => m.takeDevice
  | .loads => m.takeLoads
  | .benchmarks => m.takeBenchmarks
  | .pausing => m.pause moment
  | .leaving =>
    if m.pollersGone then { m.print m.closingLines with phase := .finished } else m
  | .finished => m

/-- The state after a step. -/
def step (m : Monitor) : MonitorStep → Monitor
  | .kernel s => { m with kernel := m.kernel.pollerStep s }
  | .device s => { m with device := m.device.pollerStep s }
  | .loads s => { m with loads := m.loads.pollerStep s }
  | .deliver number result => m.tell (.deliver number result)
  | .foreground moment => m.foreground moment

/-- The state after some steps. -/
def run (m : Monitor) (steps : List MonitorStep) : Monitor :=
  steps.foldl step m

/-- The session is told what the history says. -/
theorem session_tell {m : Monitor} {s : Session} (h : m.session = s.run m.told)
    (event : SessionEvent) : (m.tell event).session = s.run (m.tell event).told := by
  -- The event comes last in the history, so it is the last to be told.
  simp only [tell, Session.run, List.foldl_append, List.foldl_cons, List.foldl_nil]
  rw [h]
  rfl

end Monitor

end AccelMonitor
