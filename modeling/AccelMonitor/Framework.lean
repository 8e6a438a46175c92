/-!
# Inference Frameworks

What runs the models on the device, and on which accelerator.

A framework fixes the benchmark tool, the form of its report and the unit in
which offload time is kept. A delegate is the accelerator that the framework is
told to use; several of them go through the system's own neural network
interface, which may be given an accelerator's name.

## Main definitions

* `Framework`: The known frameworks.
* `Delegate`: The accelerators that a benchmark can be sent to.
* `Preference`: What the neural network interface should optimise for.
-/

namespace AccelMonitor

/-- A framework whose benchmark tool is driven on the device. -/
inductive Framework where
  /-- The command-line benchmark tool. -/
  | tflite
  /-- The benchmark application, which reports through the device log. -/
  | tfliteApp
  /-- The neural processing tools, which report through a diagnostic log. -/
  | snpe
  /-- Known by name but without a tool. -/
  | mlperf
deriving DecidableEq

namespace Framework

/-- Every framework. -/
def all : List Framework :=
  [tflite, tfliteApp, mlperf, snpe]

/-- The framework's name. -/
def name : Framework → String
  | tflite => "tflite"
  | tfliteApp => "tflite_app"
  | snpe => "SNPE"
  | mlperf => "mlperf"

/-- The framework of a name. -/
def ofName? (s : String) : Option Framework :=
  all.find? fun f => f.name == s

/-- The tool and the application share the form of the report, and both keep offload
    time as a total of nanoseconds. -/
def drivesTool : Framework → Bool
  | tflite | tfliteApp => true
  | snpe | mlperf => false

end Framework

/-- An accelerator that a benchmark can be sent to. -/
inductive Delegate where
  | hexagon
  | gpu
  | nnapi
  | cpu
  | nnapiDsp
  | nnapiGpu
  | nnapiPaintbox
  | nnapiHta
deriving DecidableEq

namespace Delegate

/-- Every delegate. -/
def all : List Delegate :=
  [hexagon, gpu, nnapi, cpu, nnapiDsp, nnapiGpu, nnapiPaintbox, nnapiHta]

/-- The delegate's name. -/
def name : Delegate → String
  | hexagon => "hexagon"
  | gpu => "gpu"
  | nnapi => "nnapi"
  | cpu => "cpu"
  | nnapiDsp => "nnapi-dsp"
  | nnapiGpu => "nnapi-gpu"
  | nnapiPaintbox => "nnapi-paintbox"
  | nnapiHta => "nnapi-hta"

/-- The delegate of a name. -/
def ofName? (s : String) : Option Delegate :=
  all.find? fun d => d.name == s

/-- The delegate goes through the system's neural network interface. -/
def isIndirect : Delegate → Bool
  | nnapi | nnapiDsp | nnapiGpu | nnapiPaintbox | nnapiHta => true
  | hexagon | gpu | cpu => false

/-- The accelerator that the neural network interface is told to use. An empty name
    leaves the choice to it. -/
def acceleratorName : Delegate → String
  | nnapiDsp => "qti-dsp"
  | nnapiGpu => "qti-gpu"
  | nnapiPaintbox => "paintbox"
  | nnapiHta => "qti-hta"
  | hexagon | gpu | nnapi | cpu => ""

/-- The delegate only runs quantized models. -/
def needsQuantized : Delegate → Bool
  | hexagon | nnapiDsp => true
  | gpu | nnapi | cpu | nnapiGpu | nnapiPaintbox | nnapiHta => false

end Delegate

/-- What the neural network interface should optimise for. -/
inductive Preference where
  | fastSingleAnswer
  | sustainedSpeed
  | lowPower
  | undefined
deriving DecidableEq

namespace Preference

/-- Every preference. -/
def all : List Preference :=
  [fastSingleAnswer, sustainedSpeed, lowPower, undefined]

/-- The preference's name on the command line. -/
def name : Preference → String
  | fastSingleAnswer => "fast-single-answer"
  | sustainedSpeed => "sustained-speed"
  | lowPower => "low-power"
  | undefined => "undefined"

/-- The preference's spelling in the benchmark tool's options. -/
def optionValue : Preference → String
  | fastSingleAnswer => "fast_single_answer"
  | sustainedSpeed => "sustained_speed"
  | lowPower => "low_power"
  | undefined => "undefined"

/-- The preference of a name. -/
def ofName? (s : String) : Option Preference :=
  all.find? fun p => p.name == s

end Preference

end AccelMonitor
