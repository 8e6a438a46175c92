import AccelMonitor.Failure
import AccelMonitor.Shell.Script
import AccelMonitor.Text.Blank

/-!
# Driver Logging

A system property and the guard that sets it for a while.

The neural network interface writes the timing of its driver while a system
property is set. The guard remembers what the property was, sets it, and puts
the old value back when it is restored or goes away; a property that was unset
is put back to zero. Restoring is attempted until it first succeeds, and after
that nothing more is asked of the device.

## Main definitions

* `Property.read`, `Property.write`: Reads and sets a property.
* `DriverLogging`: The guard.
* `DriverLogging.enable`, `restore`, `release`: Its life.

## Theorems

* `restore_restored`: A restored guard asks nothing.
-/

namespace AccelMonitor

namespace Property

/-- The value of a property, empty if it is unset. -/
def read (name : String) : Attempt Failure String := do
  let out ← Attempt.lines .spawn ("getprop " ++ name)
  return (out.head?.map Text.trim).getD ""

/-- The command that sets a property. -/
def writeCommand (name value : String) : String :=
  "setprop " ++ name ++ " " ++ value

/-- Sets a property. -/
def write (name value : String) : Attempt Failure Unit := do
  let _ ← Attempt.lines .spawn (writeCommand name value)
  return ()

end Property

/-- The property that makes the driver write its timing. -/
def driverLogProperty : String :=
  "debug.nn.vlog"

/-- The guard over the driver's logging. -/
structure DriverLogging where
  /-- The value that the property had. -/
  former : String
  /-- The value was put back. -/
  restored : Bool
deriving DecidableEq

namespace DriverLogging

/-- Sets the property and remembers what it was. -/
def enable : Attempt Failure DriverLogging := do
  let former ← Property.read driverLogProperty
  Property.write driverLogProperty "1"
  return ⟨former, false⟩

/-- The value that is put back. -/
def restoredValue (g : DriverLogging) : String :=
  if g.former = "" then "0" else g.former

/-- Puts the value back if that was not done, with the guard after it. A guard whose attempt
    failed still holds the value and will try again. -/
def restore (g : DriverLogging) : Script (Except Failure Unit × DriverLogging) :=
  if g.restored then .done (.ok (), g)
  else
    .ask (Property.writeCommand driverLogProperty g.restoredValue) fun answer =>
      match answer with
      | .ok _ => .done (.ok (), { g with restored := true })
      | .error f => .done (.error (.spawn f), g)

/-- The guard goes away. A failure to put the value back is not seen by anyone. -/
def release (g : DriverLogging) : Script Unit :=
  g.restore.bind fun _ => .done ()

/-- A restored guard asks nothing. -/
theorem restore_restored {g : DriverLogging} (h : g.restored = true) :
    g.restore = .done (.ok (), g) := by
  rw [restore, if_pos h]

end DriverLogging

end AccelMonitor
