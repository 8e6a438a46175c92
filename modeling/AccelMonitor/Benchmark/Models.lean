import AccelMonitor.Shell.Script
import AccelMonitor.Text.Pieces

/-!
# Models on the Device

Which models a benchmark can run.

A file exists on the device if listing its path prints the path back. The models
of a framework are the files of one extension in its directory, and a line that
still holds the wildcard of the listing is no file. The command-line tool has to
be installed before its models matter. Some delegates only run quantized models,
which are recognised by their names, and only for the frameworks whose models
are named so.

## Main definitions

* `Models.exists?`, `Models.require`: Whether a file is on the device.
* `Models.available`: The models of a framework.
* `Models.suitable`: The models that a delegate can run.

## Theorems

* `mem_suitable`: Which models are kept.
-/

namespace AccelMonitor

namespace Models

/-- The benchmark tool. -/
def toolPath : String :=
  "/data/local/tmp/benchmark_model"

/-- The directory of the neural processing tools. -/
def netRunRoot : String :=
  "/data/local/tmp/snpe"

/-- The pattern of the benchmark tool's models. -/
def toolModels : String :=
  "/data/local/tmp/*.tflite"

/-- The pattern of the neural processing tools' models. -/
def netRunModels : String :=
  "/data/local/tmp/snpe/models/*.dlc"

/-- The file is on the device: listing it prints its path. -/
def exists? (path : String) : Attempt Failure Bool := do
  let out ← Attempt.lines .spawn ("ls " ++ path)
  return out.head?.any fun line => Text.trim line == path

/-- Fails if the file is not on the device. -/
def require (path : String) : Attempt Failure Unit := do
  if ← exists? path then return () else throw (.missingFile path)

/-- The line names a file of the extension. -/
def isModel (extension line : String) : Bool :=
  Text.endsWith extension line && !line.toList.contains '*'

/-- The files among the lines of a listing. -/
def listed (extension : String) (lines : List String) : List String :=
  (lines.map Text.trim).filter (isModel extension)

/-- The files of a pattern on the device. -/
def list (pattern extension : String) : Attempt Failure (List String) := do
  let out ← Attempt.lines .spawn ("ls -d " ++ pattern)
  return listed extension out

/-- The models of a framework. -/
def available : Framework → Attempt Failure (List String)
  | .tflite => do
    require toolPath
    list toolModels ".tflite"
  | .tfliteApp => list toolModels ".tflite"
  | .snpe => list netRunModels ".dlc"
  | .mlperf => throw (Failure.frameworkNotImplemented .mlperf)

/-- The models that a delegate can run. -/
def suitable (models : List String) (framework : Framework) (delegate : Delegate) : List String :=
  if framework.drivesTool && delegate.needsQuantized then models.filter (Text.holds "_quant")
  else models

/-- A model is kept if the delegate runs any model or if its name says that it is
    quantized. -/
theorem mem_suitable {models : List String} {framework : Framework} {delegate : Delegate}
    {m : String} : m ∈ suitable models framework delegate ↔
      m ∈ models ∧ (framework.drivesTool && delegate.needsQuantized → Text.holds "_quant" m) := by
  rw [suitable]
  split
  case isTrue h => simp only [List.mem_filter, h, true_imp_iff]
  case isFalse h => exact ⟨fun hm => ⟨hm, fun hq => absurd hq h⟩, fun hm => hm.1⟩

end Models

end AccelMonitor
