import Std.Data.ExtTreeMap

/-!
# Counts and Tables

The keyed aggregates: how often a name occurred, and what value it has.

All of them are ordered by key, and two of them with the same entries are equal.
The order of names is that of their characters' numbers, which is also the order
of their bytes. A name that is missing from a count stands for zero, but a count
can also hold a zero, which keeps the name listed.

The program keeps a number of occurrences in 32 bits. A line of a log adds one to
it at most, so it would take more than four thousand million lines to fill one.
The numbers here are taken to stay below 2^32, and no bound is modelled.

## Main definitions

* `Table`: Values by name.
* `Counts`: Numbers by name.
* `Counts.bump`: One more occurrence of a name.
* `Counts.zeroed`: The same names, all at zero.
* `Counts.raise`: The larger of two numbers.

## Theorems

* `get_bump`, `mem_bump`: What one more occurrence changes.
* `get_zeroed`: After zeroing, every count is zero.
* `mem_zeroed`: Zeroing keeps the names.
-/

namespace AccelMonitor

/-- Values by name, in the order of the names. -/
abbrev Table (β : Type) := Std.ExtTreeMap String β

/-- The table with the given entries; of two for one name the later counts. -/
def Table.ofList {β : Type} (entries : List (String × β)) : Table β :=
  entries.foldl (fun t e => t.insert e.1 e.2) ∅

/-- Numbers by name. -/
abbrev Counts := Table Nat

namespace Counts

/-- The number of a name, zero if it is missing. -/
def get (counts : Counts) (name : String) : Nat :=
  counts[name]?.getD 0

/-- One more occurrence of a name. -/
def bump (counts : Counts) (name : String) : Counts :=
  counts.insert name (counts.get name + 1)

/-- The same names, all at zero. -/
def zeroed (counts : Counts) : Counts :=
  counts.map fun _ _ => 0

/-- Raises the number of a name to at least `n`, and lists the name. -/
def raise (counts : Counts) (name : String) (n : Nat) : Counts :=
  counts.insert name (max (counts.get name) n)

/-- What one more occurrence changes. -/
theorem get_bump (counts : Counts) (name other : String) :
    (counts.bump name).get other = counts.get other + if name = other then 1 else 0 := by
  simp only [get, bump, Std.ExtTreeMap.getElem?_insert, Std.compare_eq_iff_eq]
  by_cases h : name = other
  · rw [if_pos h, if_pos h, Option.getD_some, h]
  · rw [if_neg h, if_neg h, Nat.add_zero]

/-- One more occurrence lists the name. -/
theorem mem_bump {counts : Counts} {name other : String} :
    other ∈ counts.bump name ↔ name = other ∨ other ∈ counts := by
  rw [bump, Std.ExtTreeMap.mem_insert, Std.compare_eq_iff_eq]

/-- After zeroing, every count is zero. -/
theorem get_zeroed (counts : Counts) (name : String) : counts.zeroed.get name = 0 := by
  rw [get, zeroed, Std.ExtTreeMap.getElem?_map]
  cases counts[name]? <;> rfl

/-- Zeroing keeps the names. -/
theorem mem_zeroed (counts : Counts) (name : String) : name ∈ counts.zeroed ↔ name ∈ counts :=
  Std.ExtTreeMap.mem_map

end Counts

end AccelMonitor
