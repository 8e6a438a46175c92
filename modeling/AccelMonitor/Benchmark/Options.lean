import AccelMonitor.Failure
import AccelMonitor.Number.Written
import AccelMonitor.Text.Pieces

/-!
# Tool Options

What a benchmark tool is told on its command line.

The options of the benchmark tool are a list of flags with values, in
alphabetical order. The delegate is spread over several of them: one flag for
each accelerator that has its own, one for the neural network interface, and the
name of the interface's accelerator, which may be empty. The options of the
other tool are fewer, and only three delegates have a meaning for it, so they
can only be built from one of those.

## Main definitions

* `ToolOptions`: The options of the benchmark tool.
* `ToolOptions.flags`, `ToolOptions.arguments`: Their flags, and the text.
* `NetRunOptions`: The options of the other tool.
* `NetRunOptions.of?`: The options for a delegate that the tool can use.

## Theorems

* `of?_eq_error_iff`: Which delegates the other tool refuses.
-/

namespace AccelMonitor

/-- The options of the benchmark tool. -/
structure ToolOptions where
  /-- Threads on the processor. -/
  threads : Nat
  /-- Runs before the measured ones. -/
  warmupRuns : Nat
  runs : Nat
  /-- The accelerator. -/
  delegate : Delegate
  /-- What the accelerator cannot run goes to the processor. -/
  cpuFallback : Bool
  /-- The driver writes its own timing. -/
  timeDriver : Bool
  /-- What to optimise for. -/
  preference : Preference
deriving DecidableEq

namespace ToolOptions

/-- The options when nothing is asked for. -/
def standard : ToolOptions :=
  { threads := 4, warmupRuns := 0, runs := 1, delegate := .hexagon, cpuFallback := false
    timeDriver := false, preference := .fastSingleAnswer }

/-- The text of a truth value. -/
def boolText (b : Bool) : String :=
  if b then "true" else "false"

/-- The flags and their values, in the order of the flags. A delegate that is reached through
    the neural network interface is named in a flag of its own, the two that are not have one
    each, and the processor has none. -/
def flags (o : ToolOptions) : List (String × String) :=
  [("disable_nnapi_cpu", boolText (!o.cpuFallback && o.delegate.isIndirect)),
    ("enable_op_profiling", boolText false),
    ("hexagon_profiling", boolText false),
    ("nnapi_accelerator_name", o.delegate.acceleratorName),
    ("nnapi_execution_preference", o.preference.optionValue),
    ("num_runs", natText o.runs),
    ("num_threads", natText o.threads),
    ("require_full_delegation", boolText (!o.cpuFallback)),
    ("time_driver", boolText o.timeDriver),
    ("use_gpu", boolText (o.delegate = .gpu)),
    ("use_hexagon", boolText (o.delegate = .hexagon)),
    ("use_nnapi", boolText o.delegate.isIndirect),
    ("warmup_runs", natText o.warmupRuns)]

/-- A flag as it is written. -/
def flagText (f : String × String) : String :=
  "--" ++ f.1 ++ "=" ++ f.2

/-- The options as they are written. -/
def arguments (o : ToolOptions) : String :=
  Text.join " " (o.flags.map flagText)

end ToolOptions

/-- The options of the tool that runs models by the neural processing tools. -/
structure NetRunOptions where
  /-- The accelerator. -/
  delegate : Delegate
  /-- What the accelerator cannot run goes to the processor. -/
  cpuFallback : Bool
deriving DecidableEq

namespace NetRunOptions

/-- The options for a delegate that the tool can use. -/
def of? (delegate : Delegate) (cpuFallback : Bool) : Except Failure NetRunOptions :=
  match delegate with
  | .hexagon | .gpu | .cpu => .ok ⟨delegate, cpuFallback⟩
  | other => .error (.notImplemented ("Delegate " ++ other.name ++ " with SNPE"))

/-- The tool refuses exactly the delegates that go through the neural network
    interface. -/
theorem of?_eq_error_iff (d : Delegate) (fallback : Bool) :
    (of? d fallback).toOption = none ↔ d.isIndirect = true := by
  cases d <;> decide +revert

/-- The flag that selects an accelerator. -/
def delegateFlags : Delegate → List String
  | .hexagon => ["--use_dsp"]
  | .gpu => ["--use_gpu"]
  | _ => []

/-- The options as they are written. -/
def arguments (o : NetRunOptions) : String :=
  Text.join " " (["--perf_profile high_performance", "--profiling_level detailed"]
    ++ delegateFlags o.delegate ++ if o.cpuFallback then ["--enable_cpu_fallback"] else [])

end NetRunOptions

end AccelMonitor
