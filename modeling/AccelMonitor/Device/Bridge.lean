import AccelMonitor.Benchmark.Models
import AccelMonitor.Shell.Output

/-!
# Bridges

How the host reaches a device.

A host answers commands of its own, and for the serial number of a device it is a
shell on that device. Both are processes of the host, so they share its state.

A host can be made up of fixed texts: the listing of the devices, the user that
the bridge runs as before and after it was restarted as root, the listing of the
models, and the report of a benchmark. Its device has the benchmark tool exactly
if it has models, prints the report whenever a benchmark is run or its report is
asked for, and prints nothing otherwise. A host may also have no bridge at all.

## Main definitions

* `Host`: A shell, and a shell for each device.
* `FixedDevice`: The fixed texts.
* `FixedDevice.host`: The host made up of them.
* `Host.bare`: A host without a bridge.
-/

namespace AccelMonitor

/-- A shell on the host, and for each serial number a shell on that device. -/
structure Host (σ : Type) where
  /-- The host's own shell. -/
  shell : Shell σ
  device : String → Shell σ

/-- A host without a bridge, on which no command prints anything. -/
def Host.bare {σ : Type} : Host σ :=
  ⟨⟨fun _ s => (.ok [], s)⟩, fun _ => ⟨fun _ s => (.ok [], s)⟩⟩

/-- The texts that a host with one device prints. -/
structure FixedDevice where
  devices : String
  /-- The user that the bridge runs as. -/
  user : String
  /-- The user that it runs as after a restart as root. -/
  userAsRoot : String
  models : String
  report : String
deriving DecidableEq

/-- Whether the bridge was restarted as root. -/
abbrev Rooted := Bool

namespace FixedDevice

/-- What the host prints for a command of its own. -/
def hostOutput (d : FixedDevice) (rooted : Rooted) (command : String) : String :=
  if command = "which adb" then "/usr/bin/adb"
  else if command = "adb devices" then d.devices
  else if command = "adb shell whoami" then if rooted then d.userAsRoot else d.user
  else ""

/-- The command runs a benchmark or prints its report. -/
def isBenchmark (command : String) : Bool :=
  Text.holds "/benchmark_model --" command || Text.holds "logcat -d -v raw" command
    || Text.holds "snpe-diagview" command

/-- What the device prints for a command. -/
def deviceOutput (d : FixedDevice) (command : String) : String :=
  if Text.startsWith "ls -d " command then d.models
  else if command = "ls " ++ Models.toolPath then if d.models = "" then "" else Models.toolPath
  else if isBenchmark command then d.report
  else ""

/-- The lines of a process, if it can be started. -/
def process (command : String) (arguments : List String) (output : String) : Answer :=
  (Shell.start command arguments).map fun _ => Shell.textLines output

/-- The host made up of the texts. -/
def host (d : FixedDevice) : Host Rooted where
  shell := ⟨fun command rooted =>
    (process command (Shell.hostArguments command) (d.hostOutput rooted command),
      rooted || command = "adb root")⟩
  device serial := ⟨fun command rooted =>
    (process (Shell.deviceCommandName command) (Shell.deviceArguments (some serial) command)
      (d.deviceOutput command), rooted)⟩

end FixedDevice

end AccelMonitor
