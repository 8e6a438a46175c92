import AccelMonitor.Counts
import AccelMonitor.Number.Binary64
import AccelMonitor.Shell.Script
import AccelMonitor.Text.Pieces

/-!
# Processor Load

How busy each processor core was between two looks.

The system counts, for each core, the ticks it spent in each of several states
since it started. Two of the states are idle ones. The load of a core is the
share of the ticks since the previous look that were not idle, in percent; at
the first look the previous counts are zero. A core whose ticks did not grow
keeps its load, which is zero if it never had one. Rows that are not those of a
core, or that hold anything but numbers, are passed over.

Counts can be wrong and go backwards. A count that did is taken not to have
grown.

## Main definitions

* `Ticks`: All ticks of a core, and the idle ones.
* `Ticks.ofRow?`: The core and the ticks of a row.
* `LoadMeter`: The last counts and the loads of all cores.
* `LoadMeter.look`: The meter after a look.
-/

namespace AccelMonitor

/-- The command that prints the counters. -/
def processorCommand : String :=
  "cat /proc/stat"

/-- The load of each core in percent. -/
abbrev Loads := Table Binary64

/-- Ticks of a core since the system started. -/
structure Ticks where
  /-- All ticks. -/
  total : Nat
  /-- The ticks in idle states. -/
  idle : Nat
deriving DecidableEq

namespace Ticks

/-- No ticks. -/
def zero : Ticks :=
  ⟨0, 0⟩

/-- The numbers of a row, if all its columns are numbers. -/
def columns? : List (List Char) → Option (List Nat)
  | [] => some []
  | w :: ws =>
    match Text.readNat? Text.limit64 w, columns? ws with
    | some n, some ns => some (n :: ns)
    | _, _ => none

/-- The ticks of a row's numbers. The fourth and the fifth are the idle ones. -/
def ofColumns? (ns : List Nat) : Option Ticks :=
  match ns with
  | _ :: _ :: _ :: idle :: waiting :: _ => some ⟨ns.foldr (· + ·) 0, idle + waiting⟩
  | _ => none

/-- The word is the label of a core: `cpu` and a number. -/
def isCoreLabel : List Char → Bool
  | 'c' :: 'p' :: 'u' :: index => !index.isEmpty && index.all Text.isDigit
  | _ => false

/-- The core and the ticks of a row. The row that sums up all cores has a label without a
    number, and is passed over like every row that is none of a core. -/
def ofRow? (row : String) : Option (String × Ticks) :=
  match Text.wordsList row.toList with
  | [] => none
  | label :: rest =>
    if isCoreLabel label then
      ((columns? rest).bind ofColumns?).map fun t => (String.ofList label, t)
    else none

/-- The load of a core whose ticks grew by `total`, of which `idle` were idle. -/
def load (total idle : Nat) : Binary64 :=
  ((Binary64.ofNat 100).mul (.ofNat (total - idle))).div (.ofNat total)

end Ticks

/-- The last counts and the loads of all cores. -/
structure LoadMeter where
  /-- The last counts of each core. -/
  previous : Table Ticks
  /-- The load of each core. -/
  loads : Loads

namespace LoadMeter

/-- A meter that has seen nothing. -/
def start : LoadMeter :=
  ⟨∅, ∅⟩

/-- The load of a core after its next counts. -/
def nextLoad (before now : Ticks) (load : Option Binary64) : Binary64 :=
  -- The difference is cut off at zero, so counts that went backwards end here too.
  if now.total - before.total = 0 then load.getD .zero
  else Ticks.load (now.total - before.total) (now.idle - before.idle)

/-- The meter after the next counts of a core. -/
def record (m : LoadMeter) (entry : String × Ticks) : LoadMeter :=
  let (core, now) := entry
  { previous := m.previous.insert core now
    loads := m.loads.insert core (nextLoad (m.previous[core]?.getD .zero) now m.loads[core]?) }

/-- The meter after the rows of a look. -/
def absorb (m : LoadMeter) (rows : List String) : LoadMeter :=
  (rows.filterMap Ticks.ofRow?).foldl record m

/-- The meter after a look. -/
def look (m : LoadMeter) (answer : Answer) : Except Failure LoadMeter :=
  match answer with
  | .error f => .error (.spawn f)
  | .ok rows => .ok (m.absorb rows)

/-- The meter after a look that may have failed. -/
def after (m : LoadMeter) (looked : Except Failure LoadMeter) : LoadMeter :=
  looked.toOption.getD m

/-- Looks once more. -/
def lookAgain (m : LoadMeter) : Script (Except Failure LoadMeter) :=
  .ask processorCommand fun answer => .done (m.look answer)

end LoadMeter

end AccelMonitor
