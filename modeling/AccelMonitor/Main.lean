import AccelMonitor.Monitor.Program

/-!
# Command Line

The program as it is started from a terminal.

This program has no bridge of its own, so a run without the simulated device ends
in the preflight. A run that nothing else ends is interrupted after an hour.

## Main definitions

* `main`: The program.
-/

namespace AccelMonitor

namespace Program

/-- The pauses in an hour. -/
def longestRun : Nat :=
  36000

/-- What a run started from a terminal needs. The picks take the models in turn. -/
def terminal : Environment Unit :=
  { host := .bare, access := fun _ => .granted, choice := fun _ number => number
    pauses := longestRun, time := "" }

end Program

end AccelMonitor

open AccelMonitor in
/-- Runs the command line and leaves its outcome on the streams and in the file that it
    names. -/
def main (words : List String) : IO UInt32 := do
  let (o, _) := Program.run Program.terminal words ()
  (← IO.getStdout).putStr o.stdout
  (← IO.getStderr).putStr o.stderr
  if let some (path, text) := o.file then IO.FS.writeFile path text
  return UInt32.ofNat o.exit
