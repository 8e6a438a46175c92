import AccelMonitor.Framework
import AccelMonitor.Number.Reading
import AccelMonitor.Text.Pieces
import AccelMonitor.Text.Quoted

/-!
# Failures

Everything that can go wrong, by cause.

A failure names what happened and carries what a reader needs to see; its
wording is in `Failure.message` alone. Names and lines that come from outside
are quoted, so that blanks and control characters in them show.

## Main definitions

* `SpawnFailure`: A command that could not be started.
* `ExecutionFailure`: A benchmark job without a result.
* `Failure`: All causes.
* `Failure.message`: The failure in words.
* `Failure.account`: The same with the causes once more.
-/

namespace AccelMonitor

/-- A command that could not be started. -/
structure SpawnFailure where
  /-- The command as it was asked for. -/
  command : String
  /-- Why it could not be started. -/
  reason : String
deriving DecidableEq

/-- The failure in words. -/
def SpawnFailure.message (f : SpawnFailure) : String :=
  "Failed to spawn `" ++ f.command ++ "`: " ++ f.reason

/-- Why a benchmark job has no result. -/
inductive ExecutionFailure where
  /-- One of its commands could not be started. -/
  | spawn (failure : SpawnFailure)
  /-- The workers went away before answering. -/
  | poolClosed
deriving DecidableEq

/-- The failure in words. -/
def ExecutionFailure.message : ExecutionFailure → String
  | spawn f => f.message
  | poolClosed => "Benchmark worker pool has shut down"

/-- Everything that can go wrong. -/
inductive Failure where
  /-- A feature that is known by name only. -/
  | notImplemented (feature : String)
  /-- A reader was asked to watch nothing. -/
  | noProbes
  /-- A name that is no probe or tag. -/
  | unknownProbe (name : String)
  | unknownFramework (name : String)
  | unknownDelegate (name : String)
  | unknownPreference (name : String)
  /-- A benchmark without a model to run. -/
  | noModels (framework : Framework)
  /-- A file that the device does not have. -/
  | missingFile (path : String)
  /-- A kernel log line that does not start with a bracketed time. -/
  | missingTimestamp (line : String)
  /-- A bracketed time that is not a number. -/
  | invalidTimestamp (value : String) (fault : NumberFault)
  /-- A command or a job without a result. -/
  | execution (failure : ExecutionFailure)
deriving DecidableEq

namespace Failure

/-- A command that could not be started. -/
def spawn (f : SpawnFailure) : Failure :=
  execution (.spawn f)

/-- The failure in words. -/
def message : Failure → String
  | notImplemented feature => feature ++ " is not implemented"
  | noProbes => "At least one probe is required"
  | unknownProbe name => "Unknown probe " ++ Text.quoted name
  | unknownFramework name => "Unknown framework " ++ Text.quoted name
  | unknownDelegate name => "invalid variant: " ++ name
  | unknownPreference name => "invalid variant: " ++ name
  | noModels framework => "No models selected for " ++ framework.name
  | missingFile path => "Path '" ++ path ++ "' doesn't exist on device"
  | missingTimestamp line => "No timestamp found in log line: " ++ Text.quoted line
  | invalidTimestamp value fault =>
    "Invalid timestamp " ++ Text.quoted value ++ ": " ++ fault.message
  | execution f => f.message

/-- The causes of a failure in words, which its own words already mention. -/
def causes : Failure → List String
  | execution (.spawn f) => [f.reason]
  | invalidTimestamp _ fault => [fault.message]
  | _ => []

/-- The failure in words, followed by its causes. -/
def account (f : Failure) : String :=
  Text.join ": " (f.message :: f.causes)

/-- A feature that is missing for a whole framework. -/
def frameworkNotImplemented (f : Framework) : Failure :=
  notImplemented ("Framework " ++ f.name)

end Failure

end AccelMonitor
