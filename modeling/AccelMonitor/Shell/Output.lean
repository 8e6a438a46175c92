import AccelMonitor.Shell.Script
import AccelMonitor.Text.Decoding
import AccelMonitor.Text.Pieces

/-!
# Processes and Their Output

What it takes to start a process, and the lines it leaves behind.

A process is started from a list of arguments. An argument that holds the
character NUL cannot be passed to one, and neither can a very long one, so such
a command fails before anything runs; nothing else is checked here. What a
process writes is decoded, the blanks around the whole of it go, and the rest is
cut into lines. A line may have been ended in the manner of other systems, so
carriage returns at a line's end go too. An output of nothing but blanks has no
lines at all.

## Main definitions

* `Shell.outputLines`: The lines of a process's output.
* `Shell.start`: The arguments, if a process can be started from them.
* `Shell.hostArguments`, `Shell.deviceArguments`: How a command is handed to the
  host and to a device.

## Theorems

* `outputLines_eq_nil`: Blank output has no lines.
-/

namespace AccelMonitor

namespace Shell

/-- A line without the carriage returns it ends in. -/
def dropReturns (line : List Char) : List Char :=
  (line.reverse.dropWhile (· == '\r')).reverse

/-- The lines of a decoded output. -/
def linesOf (text : List Char) : List (List Char) :=
  let body := Text.trimList text
  if body.isEmpty then [] else (Text.pieces '\n' body).map dropReturns

/-- The lines of a text that a process wrote. -/
def textLines (text : String) : List String :=
  (linesOf text.toList).map String.ofList

/-- The lines of a process's output. -/
def outputLines (bytes : List UInt8) : List String :=
  (linesOf (Text.decode bytes)).map String.ofList

/-- Blank output has no lines. -/
theorem outputLines_eq_nil {bytes : List UInt8} (h : Text.trimList (Text.decode bytes) = []) :
    outputLines bytes = [] := by
  rw [outputLines, linesOf, h]
  rfl

/-- The number of bytes that an argument of a process has to stay below. -/
def argumentLimit : Nat :=
  131072

/-- The arguments of a process, if one can be started from them. `command` is how
    the process is called in a failure. -/
def start (command : String) (arguments : List String) : Except SpawnFailure (List String) :=
  if arguments.any fun a => a.toList.contains '\x00' then
    .error ⟨command, "nul byte found in provided data"⟩
  else if arguments.any fun a => argumentLimit ≤ a.utf8ByteSize then
    .error ⟨command, "Argument list too long (os error 7)"⟩
  else .ok arguments

/-- The arguments with which the host's command interpreter runs a command. -/
def hostArguments (command : String) : List String :=
  ["-c", command]

/-- The arguments with which the bridge runs a command on a device. Without a
    serial number it takes the only device. -/
def deviceArguments (serial : Option String) (command : String) : List String :=
  match serial with
  | some s => ["-s", s, "shell", command]
  | none => ["shell", command]

/-- How a device command is called in a failure. -/
def deviceCommandName (command : String) : String :=
  "adb shell " ++ command

end Shell

end AccelMonitor
