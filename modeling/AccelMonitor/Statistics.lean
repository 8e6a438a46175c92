/-!
# Benchmark Statistics

Where the time of a benchmark went.

There is one number for each of six categories. They are microseconds, with one
exception: for the frameworks whose offload time is measured in the kernel log,
offload is a total of nanoseconds over all runs.

## Main definitions

* `Latency`: The categories.
* `Statistics`: A number for each category.
* `Statistics.get`, `Statistics.set`: Reads and replaces a number.

## Theorems

* `get_set`: A replaced number is read back, the others stay.
-/

namespace AccelMonitor

/-- A category of a benchmark's time. -/
inductive Latency where
  | preproc
  | postproc
  | inference
  | offload
  /-- What the framework spends on handing work to an accelerator. -/
  | delegation
  | init
deriving DecidableEq

namespace Latency

/-- Every category, in the order in which they are displayed. -/
def all : List Latency :=
  [preproc, postproc, inference, offload, delegation, init]

/-- The category's name. -/
def name : Latency → String
  | preproc => "preproc"
  | postproc => "postproc"
  | inference => "inference"
  | offload => "offload"
  | delegation => "delegation"
  | init => "init"

/-- The category of a name. -/
def ofName? (s : String) : Option Latency :=
  all.find? fun c => c.name == s

end Latency

/-- A number for each category. -/
structure Statistics where
  preproc : Nat
  postproc : Nat
  inference : Nat
  offload : Nat
  delegation : Nat
  init : Nat
deriving DecidableEq

namespace Statistics

/-- All zero. -/
def zero : Statistics :=
  ⟨0, 0, 0, 0, 0, 0⟩

/-- The number of a category. -/
def get (s : Statistics) : Latency → Nat
  | .preproc => s.preproc
  | .postproc => s.postproc
  | .inference => s.inference
  | .offload => s.offload
  | .delegation => s.delegation
  | .init => s.init

/-- Replaces the number of a category. -/
def set (s : Statistics) (c : Latency) (n : Nat) : Statistics :=
  match c with
  | .preproc => { s with preproc := n }
  | .postproc => { s with postproc := n }
  | .inference => { s with inference := n }
  | .offload => { s with offload := n }
  | .delegation => { s with delegation := n }
  | .init => { s with init := n }

/-- All categories with their numbers, in the order of display. -/
def entries (s : Statistics) : List (Latency × Nat) :=
  Latency.all.map fun c => (c, s.get c)

/-- A replaced number is read back, and the others stay. -/
theorem get_set (s : Statistics) (c d : Latency) (n : Nat) :
    (s.set c n).get d = if c = d then n else s.get d := by
  cases c <;> cases d <;> rfl

end Statistics

end AccelMonitor
