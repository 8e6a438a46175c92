import AccelMonitor.Benchmark.Models
import AccelMonitor.Benchmark.Options

/-!
# Benchmark Jobs

The commands that make up a benchmark.

A job runs its commands in order. It may then wait until the output of a further
command holds a certain text, for tools that return before the benchmark ends,
and it may finish with commands whose output is the result in place of what the
run printed.

Each framework has a plan. The benchmark tool is started once, with all its
processes in the background of one command. The application is started once per
process, and its report is taken from the device log. The neural processing
tools run in rounds; every process of every round writes into a directory of its
own, and the diagnostic log of the first process of each round is read
afterwards.

Which model a process runs is left open: it is a choice from the list by the
number of the pick.

## Main definitions

* `EndSign`, `Job`: The commands of a benchmark.
* `Choice`: Which model each process runs.
* `Job.tool`, `Job.app`, `Job.netRun`: The plans.
* `Job.plan`: The plan of a framework.

## Theorems

* `picks_length`: Every process gets a model.
-/

namespace AccelMonitor

/-- A command to be repeated until its output holds a text. A benchmark that goes on in the
    background has no command of its own that ends with it, so its end is read off a log. -/
structure EndSign where
  command : String
  /-- The text. -/
  sign : String
  /-- Milliseconds between two repetitions. -/
  interval : Nat
  /-- Milliseconds after which the waiting is given up. -/
  timeout : Nat
deriving DecidableEq

/-- The commands of a benchmark. -/
structure Job where
  /-- The framework whose report the job prints. -/
  framework : Framework
  /-- The commands to run, in order. -/
  run : List String
  /-- When the benchmark has ended, if not with the last command. -/
  endSign : Option EndSign
  /-- Commands whose output replaces that of the run. -/
  report : List String
deriving DecidableEq

/-- The position of the model that each pick takes, given the number of models and the
    number of the pick. -/
abbrev Choice := Nat → Nat → Nat

namespace Job

/-- The model of a pick. -/
def pick? (choice : Choice) (models : List String) (number : Nat) : Option String :=
  models[choice models.length number % models.length]?

/-- The models of the processes of a round, the first of whose picks has a given
    number. There is always one process. -/
def picks (choice : Choice) (models : List String) (first processes : Nat) : List String :=
  (List.range (max processes 1)).filterMap fun p => pick? choice models (first + p)

/-- Several commands in the background of one, which ends when all of them have. -/
def inBackground (commands : List String) : String :=
  String.ofList ((commands.flatMap fun c => (c ++ " & ").toList) ++ "wait".toList)

/-- The benchmark tool, once per process, in the background of one command. -/
def tool (models : List String) (options : ToolOptions) (processes : Nat) (choice : Choice) :
    Except Failure Job :=
  if models = [] then .error (.noModels .tflite)
  else
    let commands := (picks choice models 0 processes).map fun graph =>
      Models.toolPath ++ " " ++ options.arguments ++ " --graph=" ++ graph
    .ok { framework := .tflite, run := [inBackground commands], endSign := none, report := [] }

/-- The command that prints the application's report. -/
def appReport : String :=
  "logcat -d -v raw -s tflite:I"

/-- The start of the application on a model. -/
def appStart (options : ToolOptions) (graph : String) : String :=
  "am start -S -W -n org.tensorflow.lite.benchmark/.BenchmarkModelActivity --es args '\"--graph="
    ++ graph ++ " " ++ options.arguments ++ "\"'"

/-- The benchmark application, once per process, with its report from the device log. The log is
    cleared first, so that a report of an earlier benchmark does not end the waiting. -/
def app (models : List String) (options : ToolOptions) (processes : Nat) (choice : Choice) :
    Except Failure Job :=
  if models = [] then .error (.noModels .tfliteApp)
  else .ok
    { framework := .tfliteApp
      run := "logcat -c" :: (picks choice models 0 processes).map (appStart options)
      endSign := some ⟨appReport, "Inference timings in us", 1000, 600000⟩
      report := [appReport] }

/-- The directory and the search paths of the neural processing tools. -/
def netRunEnvironment : String :=
  "cd " ++ Models.netRunRoot ++ " && export LD_LIBRARY_PATH=" ++ Models.netRunRoot
    ++ "/lib:$LD_LIBRARY_PATH ADSP_LIBRARY_PATH=\"" ++ Models.netRunRoot
    ++ "/dsp/lib;/system/lib/rfsa/adsp;/system/vendor/lib/rfsa/adsp;/dsp\" PATH="
    ++ Models.netRunRoot ++ "/bin:$PATH"

/-- The directory that a process of a round writes into. The first one's has no
    number of its own. -/
def outputDirectory (round process : Nat) : String :=
  let base := "output_" ++ natText round
  if process = 0 then base else base ++ "_p" ++ natText process

/-- A process of a round. -/
def netRunProcess (options : NetRunOptions) (round process : Nat) (container : String) : String :=
  "snpe-net-run --container " ++ container ++ " --input_list input_list.txt --output_dir "
    ++ outputDirectory round process ++ " " ++ options.arguments

/-- All processes of a round. -/
def netRunRound (models : List String) (options : NetRunOptions) (processes : Nat)
    (choice : Choice) (round : Nat) : String :=
  -- The picks of all rounds are numbered in one sequence.
  let containers := picks choice models (round * max processes 1) processes
  netRunEnvironment ++ " && " ++ inBackground
    (containers.zipIdx.map fun c => netRunProcess options round c.2 c.1)

/-- The diagnostic log of the first process of a round. -/
def netRunReport (round : Nat) : String :=
  netRunEnvironment ++ " && snpe-diagview --input_log " ++ Models.netRunRoot ++ "/"
    ++ outputDirectory round 0 ++ "/SNPEDiag_0.log"

/-- The neural processing tools, in rounds. A tool has no number of runs of its own, so each
    round starts all processes once, and there is always one round. The report of a round is
    that of its first process. -/
def netRun (models : List String) (options : NetRunOptions) (processes runs : Nat)
    (choice : Choice) : Except Failure Job :=
  if models = [] then .error (.noModels .snpe)
  else
    let rounds := List.range (max runs 1)
    .ok
      { framework := .snpe
        run := rounds.map (netRunRound models options processes choice)
        endSign := none
        report := rounds.map netRunReport }

/-- The plan of a framework. -/
def plan (framework : Framework) (models : List String) (options : ToolOptions)
    (netRunOptions : Option NetRunOptions) (processes : Nat) (choice : Choice) :
    Except Failure Job :=
  match framework, netRunOptions with
  | .tflite, _ => tool models options processes choice
  | .tfliteApp, _ => app models options processes choice
  | .snpe, some o => netRun models o processes options.runs choice
  | .snpe, none => .error (.notImplemented "Framework SNPE without options")
  | .mlperf, _ => .error (Failure.frameworkNotImplemented .mlperf)

/-- Every process gets a model, if there is any. -/
theorem picks_length {models : List String} (h : models ≠ []) (choice : Choice)
    (first processes : Nat) : (picks choice models first processes).length = max processes 1 := by
  have hpos : 0 < models.length := List.length_pos_iff.mpr h
  have hsome : ∀ n, pick? choice models n
      = some (models.get ⟨choice models.length n % models.length, Nat.mod_lt _ hpos⟩) := fun n =>
    List.getElem?_eq_getElem (Nat.mod_lt _ hpos)
  simp only [picks, hsome, List.filterMap_eq_map', List.length_map, List.length_range]

end Job

end AccelMonitor
