import AccelMonitor.Failure
import AccelMonitor.Number.Written
import AccelMonitor.Shell.Script
import AccelMonitor.Text.Pieces

/-!
# Preflight

Whether the host and the device are fit to be monitored.

Three things are checked, in order: the bridge's binary can be found, exactly
one device is connected and has accepted the host, and the bridge runs as root
on it. A bridge that does not run as root is restarted as root once. The first
check that fails ends the preflight.

A listing of devices is one line of heading and then one line per device, with
the serial number and the status as its first two words.

## Main definitions

* `PreflightFailure`: What can be wrong.
* `PreflightFailure.message`: The failure in words.
* `Preflight.entryOf`: The only device of a listing.
* `Preflight.check`: All checks, ending in the serial number of the device.

## Theorems

* `entryOf_error`: A listing without devices is refused.
-/

namespace AccelMonitor

/-- What a preflight can fail at. Two of these are a matter of permission, which the exit code
    tells from all others. -/
inductive PreflightFailure where
  /-- A command of a check could not be started. -/
  | command (purpose : String) (failure : SpawnFailure)
  /-- Binaries that cannot be found. -/
  | missingBinaries (names : List String)
  | noDevice
  /-- There is more than one device. -/
  | manyDevices (count : Nat)
  /-- The device has not accepted the host. -/
  | unauthorized
  /-- The bridge does not run as root after a restart. -/
  | notRoot
deriving DecidableEq

/-- The failure in words. The reason why a command could not be started comes last once
    more, as the cause of the failure. -/
def PreflightFailure.message : PreflightFailure → String
  | command purpose f => purpose ++ ": " ++ f.message ++ ": " ++ f.reason
  | missingBinaries names =>
    "Following required binaries not found: " ++ Text.join ", " names
      ++ "\n\nInstall the Android platform tools and make sure they are on your PATH."
  | noDevice => "No devices connected"
  | manyDevices count =>
    "atop expects only a single connected Android device, found " ++ natText count
  | unauthorized =>
    "Permission denied: please allow adb access to your device\n\n"
      ++ "Enable USB debugging and accept the authorization prompt on the device."
  | notRoot =>
    "Failed to restart adb in root: permission denied\n\n"
      ++ "atop reads debugfs and the kernel log, which requires a rootable (userdebug) build."

namespace Preflight

/-- The binaries that the host has to have. -/
def requiredBinaries : List String :=
  ["adb"]

/-- The output of a command of a check. -/
def output (purpose command : String) : Attempt PreflightFailure (List String) :=
  Attempt.lines (.command purpose) command

/-- Of some binaries, those that cannot be found. -/
def missing : List String → Attempt PreflightFailure (List String)
  | [] => pure []
  | name :: rest => do
    let found ← output "Failed to run `which`" ("which " ++ name)
    let others ← missing rest
    return if found = [] then name :: others else others

/-- Every required binary can be found. -/
def checkBinaries : Attempt PreflightFailure Unit := do
  let names ← missing requiredBinaries
  if names = [] then return () else throw (.missingBinaries names)

/-- The lines of a listing that stand for a device. -/
def deviceLines (listing : List String) : List String :=
  (listing.drop 1).filter fun line => Text.trim line != ""

/-- The serial number on a device's line, if the device has accepted the host. -/
def serialOf (line : String) : Except PreflightFailure String :=
  let fields := Text.words line
  if fields[1]?.getD "" = "unauthorized" then .error .unauthorized
  else .ok (fields.head?.getD "")

/-- The serial number of the only device of a listing. -/
def entryOf (listing : List String) : Except PreflightFailure String :=
  match deviceLines listing with
  | [] => .error .noDevice
  | [line] => serialOf line
  | lines => .error (.manyDevices lines.length)

/-- Exactly one device is connected and has accepted the host. -/
def checkDevice : Attempt PreflightFailure String := do
  let listing ← output "Failed to list adb devices" "adb devices"
  match entryOf listing with
  | .ok serial => return serial
  | .error f => throw f

/-- The output says that the user is root. -/
def saysRoot (out : List String) : Bool :=
  out.head?.any fun line => Text.trim line == "root"

/-- The bridge runs as root. -/
def isRoot : Attempt PreflightFailure Bool := do
  let out ← output "Failed to query adb user" "adb shell whoami"
  return saysRoot out

/-- The bridge runs as root, at once or after a restart. -/
def checkRoot : Attempt PreflightFailure Unit := do
  if ← isRoot then return ()
  else
    let _ ← output "Failed to run `adb root`" "adb root"
    if ← isRoot then return () else throw .notRoot

/-- All checks, ending in the serial number of the device. -/
def check : Attempt PreflightFailure String := do
  checkBinaries
  let serial ← checkDevice
  checkRoot
  return serial

/-- A listing without devices is refused. -/
theorem entryOf_error {listing : List String} (h : deviceLines listing = []) :
    entryOf listing = .error .noDevice := by
  rw [entryOf, h]

end Preflight

end AccelMonitor
