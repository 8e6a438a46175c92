import AccelMonitor.Framework
import AccelMonitor.Number.Reading
import AccelMonitor.Text.Digit
import AccelMonitor.Text.Pieces

/-!
# Arguments

What can be asked for on the command line, and what was.

There are flags, which are there or not, and parameters, which have a value.
Each has a long name, some have a letter besides. A parameter that is not given
has a standard value. Its value is read by the parameter's own rules: a number
within the limits of its width, one of several words, or a file name.

## Main definitions

* `Arguments`: What was asked for.
* `Flag`, `Parameter`: What can be asked for.
* `UsageFault`: What can be wrong with a command line.
* `Flag.raise`, `Parameter.accept`: The arguments with one more.
* `usage`: The help text.
-/

namespace AccelMonitor

/-- What was asked for. -/
structure Arguments where
  /-- Tell more. -/
  verbose : Bool
  /-- Use the simulated device. -/
  simulated : Bool
  /-- The seconds after which to stop, zero for never. -/
  duration : Nat
  framework : Framework
  benchmark : Bool
  /-- Stop when all benchmarks have been consumed. -/
  exitOnComplete : Bool
  processes : Nat
  /-- The measured runs of a process. -/
  runs : Nat
  /-- The runs before them. -/
  warmupRuns : Nat
  threads : Nat
  /-- The accelerator. -/
  delegate : Delegate
  /-- What the accelerator cannot run goes to the processor. -/
  cpuFallback : Bool
  /-- Let the driver write its timing. -/
  driverLogging : Bool
  /-- Leave the kernel's logging switches alone. -/
  noKernelLogging : Bool
  /-- What the accelerator should optimise for. -/
  preference : Preference
  /-- The seed of the choice of models. -/
  seed : Option Nat
  /-- Count all new lines and not only recent ones. -/
  fullLog : Bool
  /-- The seconds within which a line is recent. -/
  recencyThreshold : Binary64
  queueCapacity : Nat
  poolSize : Nat
  /-- The file to write the session to. -/
  exportPath : Option String
  /-- Tell less. -/
  quiet : Bool
deriving DecidableEq

/-- The arguments of an empty command line. -/
def Arguments.standard : Arguments :=
  { verbose := false, simulated := false, duration := 0, framework := .tflite, benchmark := false
    exitOnComplete := false, processes := 1, runs := 1, warmupRuns := 0, threads := 4
    delegate := .hexagon, cpuFallback := false, driverLogging := false, noKernelLogging := false
    preference := .fastSingleAnswer, seed := none, fullLog := false
    recencyThreshold := .ofNat 20, queueCapacity := 10, poolSize := 8, exportPath := none
    quiet := false }

/-- What can be wrong with a command line, or asked for in place of a run. -/
inductive UsageFault where
  /-- An argument that means nothing. -/
  | unknown (argument : String)
  | missingValue (parameter : String)
  /-- A value that is not one of those the parameter has. -/
  | notAllowed (parameter value : String)
  /-- A value that cannot be read. -/
  | unreadable (parameter value : String)
  | unexpectedValue (flag value : String)
  /-- A flag or a parameter that is given twice. -/
  | repeated (name : String)
  /-- A flag that has no meaning without another one. -/
  | needs (flag other : String)
  /-- The help text is asked for. -/
  | helpWanted
  /-- The version is asked for. -/
  | versionWanted
deriving DecidableEq

/-- The fault in words. -/
def UsageFault.message : UsageFault → String
  | unknown argument => "unexpected argument '" ++ argument ++ "'"
  | missingValue parameter => "a value is required for '--" ++ parameter ++ "'"
  | notAllowed parameter value => "'" ++ value ++ "' is not a value of '--" ++ parameter ++ "'"
  | unreadable parameter value => "invalid value '" ++ value ++ "' for '--" ++ parameter ++ "'"
  | unexpectedValue flag value => "unexpected value '" ++ value ++ "' for '--" ++ flag ++ "'"
  | repeated name => "the argument '--" ++ name ++ "' cannot be used multiple times"
  | needs flag other => "the argument '--" ++ flag ++ "' needs '--" ++ other ++ "'"
  | helpWanted => "help"
  | versionWanted => "version"

/-- What is there or not. -/
inductive Flag where
  | verbose
  | simulated
  | benchmark
  | exitOnComplete
  | cpuFallback
  | driverLogging
  | noKernelLogging
  | fullLog
  | quiet
  | help
  | version
deriving DecidableEq

namespace Flag

/-- Every flag. -/
def all : List Flag :=
  [verbose, simulated, benchmark, exitOnComplete, cpuFallback, driverLogging, noKernelLogging,
    fullLog, quiet, help, version]

/-- The flag's long name. -/
def name : Flag → String
  | verbose => "verbose"
  | simulated => "sim"
  | benchmark => "benchmark"
  | exitOnComplete => "exit-on-complete"
  | cpuFallback => "cpu-fallback"
  | driverLogging => "driver-logging"
  | noKernelLogging => "no-kernel-logging"
  | fullLog => "full-log"
  | quiet => "quiet"
  | help => "help"
  | version => "version"

/-- The flag's letter. -/
def letter? : Flag → Option Char
  | verbose => some 'v'
  | simulated => some 's'
  | benchmark => some 'b'
  | quiet => some 'q'
  | help => some 'h'
  | version => some 'V'
  | exitOnComplete | cpuFallback | driverLogging | noKernelLogging | fullLog => none

/-- The flag of a long name. -/
def ofName? (s : String) : Option Flag :=
  all.find? fun f => f.name == s

/-- The flag of a letter. -/
def ofLetter? (c : Char) : Option Flag :=
  all.find? fun f => f.letter? == some c

/-- The arguments with a flag raised. The two flags that ask for a text end the reading at once,
    and what stands behind them is never looked at. -/
def raise (f : Flag) (a : Arguments) : Except UsageFault Arguments :=
  match f with
  | verbose => .ok { a with verbose := true }
  | simulated => .ok { a with simulated := true }
  | benchmark => .ok { a with benchmark := true }
  | exitOnComplete => .ok { a with exitOnComplete := true }
  | cpuFallback => .ok { a with cpuFallback := true }
  | driverLogging => .ok { a with driverLogging := true }
  | noKernelLogging => .ok { a with noKernelLogging := true }
  | fullLog => .ok { a with fullLog := true }
  | quiet => .ok { a with quiet := true }
  | help => .error .helpWanted
  | version => .error .versionWanted

end Flag

/-- What has a value. -/
inductive Parameter where
  | duration
  | framework
  | processes
  | runs
  | warmupRuns
  | threads
  | delegate
  | preference
  | seed
  | recencyThreshold
  | queueCapacity
  | poolSize
  | exportPath
deriving DecidableEq

namespace Parameter

/-- Every parameter. -/
def all : List Parameter :=
  [duration, framework, processes, runs, warmupRuns, threads, delegate, preference, seed,
    recencyThreshold, queueCapacity, poolSize, exportPath]

/-- The parameter's long name. -/
def name : Parameter → String
  | duration => "duration"
  | framework => "framework"
  | processes => "processes"
  | runs => "runs"
  | warmupRuns => "warmup-runs"
  | threads => "threads"
  | delegate => "delegate"
  | preference => "exec-pref"
  | seed => "seed"
  | recencyThreshold => "recency-threshold"
  | queueCapacity => "queue-capacity"
  | poolSize => "pool-size"
  | exportPath => "export"

/-- The parameter's letter. -/
def letter? : Parameter → Option Char
  | framework => some 'f'
  | processes => some 'p'
  | delegate => some 'd'
  | _ => none

/-- The parameter of a long name. -/
def ofName? (s : String) : Option Parameter :=
  all.find? fun p => p.name == s

/-- The parameter of a letter. -/
def ofLetter? (c : Char) : Option Parameter :=
  all.find? fun p => p.letter? == some c

/-- A number of 64 bits. -/
def wide? (s : String) : Option Nat :=
  Text.readNat? Text.limit64 s.toList

/-- The text is a zero with a minus sign. -/
def isMinusZero (s : List Char) : Bool :=
  match s with
  | '-' :: digits => !digits.isEmpty && digits.all (· == '0')
  | _ => false

/-- A number of 32 bits, which may be a zero with a minus sign. -/
def narrow? (s : String) : Option Nat :=
  if isMinusZero s.toList then some 0 else Text.readNat? Text.limit32 s.toList

/-- A file name, which is not empty. -/
def path? (s : String) : Option String :=
  if s = "" then none else some s

/-- The arguments with a value read by a rule. -/
def reading {α : Type} (p : Parameter) (value : String) (read : Option α) (put : α → Arguments) :
    Except UsageFault Arguments :=
  match read with
  | some x => .ok (put x)
  | none => .error (.unreadable p.name value)

/-- The arguments with one of several values. -/
def choosing {α : Type} (p : Parameter) (value : String) (read : Option α) (put : α → Arguments) :
    Except UsageFault Arguments :=
  match read with
  | some x => .ok (put x)
  | none => .error (.notAllowed p.name value)

/-- The arguments with a value for a parameter. -/
def accept (p : Parameter) (value : String) (a : Arguments) : Except UsageFault Arguments :=
  match p with
  | duration => reading p value (wide? value) fun n => { a with duration := n }
  | framework => reading p value (Framework.ofName? value) fun f => { a with framework := f }
  | processes => reading p value (narrow? value) fun n => { a with processes := n }
  | runs => reading p value (narrow? value) fun n => { a with runs := n }
  | warmupRuns => reading p value (narrow? value) fun n => { a with warmupRuns := n }
  | threads => reading p value (narrow? value) fun n => { a with threads := n }
  | delegate => choosing p value (Delegate.ofName? value) fun d => { a with delegate := d }
  | preference => choosing p value (Preference.ofName? value) fun e => { a with preference := e }
  | seed => reading p value (wide? value) fun n => { a with seed := some n }
  | recencyThreshold =>
    reading p value (Binary64.read value).toOption fun x => { a with recencyThreshold := x }
  | queueCapacity => reading p value (wide? value) fun n => { a with queueCapacity := n }
  | poolSize => reading p value (wide? value) fun n => { a with poolSize := n }
  | exportPath => choosing p value (path? value) fun s => { a with exportPath := some s }

end Parameter

/-- A line of the help text for a name that may have a letter. -/
def helpLine (letter : Option Char) (name ending : String) : String :=
  let opening := match letter with
    | some c => "  -" ++ String.ofList [c] ++ ", "
    | none => "      "
  opening ++ "--" ++ name ++ ending

/-- The help text of a program. -/
def usage (program : String) : String :=
  let flags := Flag.all.map fun f => helpLine f.letter? f.name ""
  let parameters := Parameter.all.map fun p => helpLine p.letter? p.name " <VALUE>"
  Text.join "\n" ((("Usage: " ++ program ++ " [OPTIONS]") :: "" :: flags) ++ parameters ++ [""])

end AccelMonitor
