import AccelMonitor.Failure
import AccelMonitor.Shell.Script

/-!
# Kernel Logging

The switches of the instrumented drivers, and the guard that turns them on for a
while.

Each driver has a file that switches its logging, and a value that turns it on;
zero turns it off. The guard turns all of them on, in order, and turns all of
them off again when it is disabled or goes away. It counts as on until every
switch was turned off in one attempt; an attempt stops at the first switch that
cannot be written, and the next one starts over.

## Main definitions

* `Switch`: A file and the value that turns it on.
* `Switches.writeAll`: Writes some switches in order.
* `KernelLogging`: The guard.
* `KernelLogging.enable`, `disable`, `release`: Its life.

## Theorems

* `disable_disabled`: A guard that is off asks nothing.
-/

namespace AccelMonitor

/-- A driver's logging switch. -/
structure Switch where
  /-- The file to write to. -/
  path : String
  /-- The value that turns it on. -/
  on : String
deriving DecidableEq

namespace Switches

/-- The switches of the instrumented drivers. -/
def all : List Switch :=
  [⟨"/sys/kernel/debug/adsprpc/global", "1"⟩,
    ⟨"/sys/kernel/debug/camera_sync/logging_enabled", "1"⟩,
    ⟨"/sys/kernel/debug/cam_sensor/logging_enabled", "1"⟩,
    ⟨"/sys/kernel/debug/kgsl/kgsl-3d0/log_level_perf", "6"⟩]

/-- The command that writes a value to a file. -/
def writeCommand (value path : String) : String :=
  "echo " ++ value ++ " >> " ++ path

/-- The command that turns a switch on. -/
def onCommand (s : Switch) : String :=
  writeCommand s.on s.path

/-- The command that turns a switch off. -/
def offCommand (s : Switch) : String :=
  writeCommand "0" s.path

/-- Performs some commands in order, up to the first that cannot be started. What was written
    before it stays written. -/
def writeAll : List String → Script (Except Failure Unit)
  | [] => .done (.ok ())
  | command :: rest => .ask command fun answer =>
    match answer with
    | .ok _ => writeAll rest
    | .error f => .done (.error (.spawn f))

end Switches

/-- The guard over the drivers' logging. -/
structure KernelLogging where
  /-- The switches are on. -/
  enabled : Bool
deriving DecidableEq

namespace KernelLogging

/-- Turns all switches on. -/
def enable : Script (Except Failure KernelLogging) :=
  (Switches.writeAll (Switches.all.map Switches.onCommand)).bind fun r =>
    .done (r.map fun _ => ⟨true⟩)

/-- Turns all switches off if they are on, with the guard after it. The writing stops at the
    first switch that cannot be written, so those behind it stay on until the next call. -/
def disable (g : KernelLogging) : Script (Except Failure Unit × KernelLogging) :=
  if g.enabled then
    (Switches.writeAll (Switches.all.map Switches.offCommand)).bind fun r =>
      -- A guard whose attempt failed is still on and will try all switches again.
      .done (r, ⟨r.toOption.isNone⟩)
  else .done (.ok (), g)

/-- The guard goes away. A failure to turn a switch off is not seen by anyone. -/
def release (g : KernelLogging) : Script Unit :=
  g.disable.bind fun _ => .done ()

/-- A guard that is off asks nothing. -/
theorem disable_disabled {g : KernelLogging} (h : g.enabled = false) :
    g.disable = .done (.ok (), g) := by
  rw [disable, h]
  rfl

end KernelLogging

end AccelMonitor
