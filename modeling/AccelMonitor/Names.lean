import AccelMonitor.Failure
import AccelMonitor.Probe

/-!
# Names

Reading the names of things that are known by name.

A name is read exactly as it is written, and one that stands for nothing is a
failure that quotes it.

## Main definitions

* `KernelProbe.ofText`, `LogTag.ofText`: Probes and tags.
* `Framework.ofText`, `Delegate.ofText`, `Preference.ofText`: What a benchmark is
  run with.
-/

namespace AccelMonitor

/-- The probe of a keyword. -/
def KernelProbe.ofText (s : String) : Except Failure KernelProbe :=
  match ofKeyword? s with
  | some p => .ok p
  | none => .error (.unknownProbe s)

/-- The tag of a name. -/
def LogTag.ofText (s : String) : Except Failure LogTag :=
  match ofName? s with
  | some t => .ok t
  | none => .error (.unknownProbe s)

/-- The framework of a name. -/
def Framework.ofText (s : String) : Except Failure Framework :=
  match ofName? s with
  | some f => .ok f
  | none => .error (.unknownFramework s)

/-- The delegate of a name. -/
def Delegate.ofText (s : String) : Except Failure Delegate :=
  match ofName? s with
  | some d => .ok d
  | none => .error (.unknownDelegate s)

/-- The preference of a name. -/
def Preference.ofText (s : String) : Except Failure Preference :=
  match ofName? s with
  | some p => .ok p
  | none => .error (.unknownPreference s)

end AccelMonitor
