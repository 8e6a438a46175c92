import AccelMonitor.Number.Written
import AccelMonitor.Shell.Recording

/-!
# A Simulated Device

A recording that behaves like a rooted device under load.

The kernel log and the processor counters grow with every look, up to a number
of looks after which they stand still; the device log holds two lines and does
not grow. The benchmark tool is installed, has two models and prints a report.
All of it is a recording, so a session on it needs no hardware.

Six lines come with every step of the kernel log, a tenth of a second apart, and
a step is two seconds. They are driver times, their part on the accelerator, and
requests of a benchmark and of the system to one of four drivers, which take
turns.

## Main definitions

* `Simulated.kernelLog`, `Simulated.processorRows`: What a look shows.
* `Simulated.device`: The recording.

## Theorems

* `kernelLog_succ`: The kernel log only grows.
-/

namespace AccelMonitor

namespace Simulated

/-- The looks over which the device changes. -/
def steps : Nat :=
  30

/-- The processor cores. -/
def cores : Nat :=
  4

/-- The drivers, which take turns. -/
def drivers : List String :=
  ["kgsl", "cDSP", "vidioc", "aDSP"]

/-- A time of the kernel log, given in tenths of a second. -/
def stamp (tenths : Nat) : String :=
  "[" ++ Text.padLeft 12 (natText (tenths / 10) ++ "." ++ natText (tenths % 10) ++ "00000") ++ "] "

/-- A line of a step. -/
def kernelLine (step i : Nat) : String :=
  let driver := drivers[(step + i) % drivers.length]?.getD ""
  stamp (1000 + 20 * step + i) ++
    match i % 4 with
    | 0 => "TIME adsprpc: (app: benchmark_model) (ioctl) 0.00" ++ natText (2 + i % 3)
    | 1 => "TIME adsprpc: (app: benchmark_model) (invoke) 0.001"
    | 2 => "IOCTL " ++ driver
        ++ ": (app: benchmark_model) (cmd: IOCTL_KGSL_GPU_COMMAND [74]) (time: 0.0004)"
    | _ => "IOCTL " ++ driver ++ ": (app: surfaceflinger) (cmd: IOCTL_KGSL_GPUOBJ_SYNC [72])"

/-- The lines of a step. -/
def kernelStep (step : Nat) : List String :=
  (List.range 6).map (kernelLine step)

/-- The kernel log at a look. -/
def kernelLog (look : Nat) : List String :=
  "[    0.000000] Booting Linux on physical CPU 0x0"
    :: (List.range (look + 1)).flatMap kernelStep

/-- The counters of a core at a look. -/
def coreRow (look core : Nat) : String :=
  "cpu" ++ natText core ++ " " ++ natText (look * (10 + core * 15)) ++ " 0 0 "
    ++ natText (look * (90 - core * 15)) ++ " 0 0 0 0 0 0"

/-- The rows of the processor counters at a look. -/
def processorRows (look : Nat) : List String :=
  "cpu  0 0 0 0 0 0 0 0 0 0" :: (List.range cores).map (coreRow look) ++ ["intr 12345"]

/-- The report of the benchmark tool. -/
def toolReport : List String :=
  ["STARTING!",
    "Graph: [/data/local/tmp/mobilenet_v1_quant.tflite]",
    "PRE-PROCESSING done 1500",
    "Inference timings in us: Init: 2000, First inference: 9000, Warmup (avg): 6000, "
      ++ "Inference (avg): 5000"]

/-- The device log. -/
def deviceLog : List String :=
  ["05-13 23:23:08.123  4242  4250 V ExecutionBuilder: (app: benchmark_model) (driver) 0.0007",
    "05-13 23:23:08.456  4242  4250 I tflite  : Inference timings in us: Init: 2000, "
      ++ "Inference (avg): 5000"]

/-- The models of the benchmark tool. -/
def models : List String :=
  ["/data/local/tmp/mobilenet_v1_quant.tflite", "/data/local/tmp/inception_v3.tflite"]

/-- The answers, by how their commands begin and in the order in which they are
    given. -/
def answers : List (String × List String) :=
  [("ls /data/local/tmp/benchmark_model", ["/data/local/tmp/benchmark_model"]),
    ("ls -d", models),
    ("/data/local/tmp/benchmark_model", toolReport),
    ("logcat -d -v raw", toolReport),
    ("logcat -d -v threadtime", deviceLog),
    ("getprop", ["0"])]
    ++ (List.range steps).map (fun look => ("dmesg", kernelLog look))
    ++ (List.range steps).map fun look => ("cat /proc/stat", processorRows look)

/-- The recording. -/
def device : Recording :=
  answers.foldl (fun s a => s.push a.1 (.output a.2)) .empty

/-- The kernel log only grows. -/
theorem kernelLog_succ (look : Nat) :
    kernelLog (look + 1) = kernelLog look ++ kernelStep (look + 1) := by
  rw [kernelLog, kernelLog, List.range_succ, List.flatMap_append, List.cons_append,
    List.flatMap_singleton]

end Simulated

end AccelMonitor
