import AccelMonitor.Counts
import AccelMonitor.Offload

/-!
# Breakdown by Application

Which application asked the drivers for what, and how often.

A line of a request names the application and the command, and a line of a
remark names the application and is followed by the remark. Each recognised line
counts one under its application and its command or remark. Timing lines name no
command, so a breakdown of them is refused.

As in every table of counts, the numbers are taken to stay below 2^32.

## Main definitions

* `Breakdown`: Occurrences by application and command.
* `Breakdown.entryOf?`: The application and the command of a line.
* `Breakdown.count`: Counts the lines of a probe.

## Theorems

* `countOf_bump`: What one more occurrence changes.
* `count_time`: Timing lines have no breakdown.
-/

namespace AccelMonitor

/-- Occurrences by application and command. -/
abbrev Breakdown := Table Counts

namespace Breakdown

/-- The occurrences of a command of an application. -/
def countOf (b : Breakdown) (app command : String) : Nat :=
  (b[app]?.getD ∅).get command

/-- One more occurrence of a command of an application. -/
def bump (b : Breakdown) (entry : String × String) : Breakdown :=
  b.insert entry.1 ((b[entry.1]?.getD ∅).bump entry.2)

/-- A request: `(app: name) (cmd: command [number])`, with the command as group 2. -/
def requestPattern : Pattern :=
  .all [Offload.appPattern, .blanks, .str "(cmd:", .blanks, .group 2 (.few1 Pattern.isInLine),
    .blanks, .str "[", .digits1, .str "]", .blanks, .str ")"]

/-- A remark: `INFO: (app: name) remark`, with the remark as group 2. -/
def remarkPattern : Pattern :=
  .all [.str "INFO:", .blanks, Offload.appPattern, .blanks, .group 2 (.few Pattern.isInLine),
    .blanks, .atEnd]

/-- The application and the command of a line that fits a pattern. -/
def entryOf? (pattern : Pattern) (line : String) : Option (String × String) :=
  (pattern.find line.toList).map fun g => (g.get 1, g.get 2)

/-- The pattern of the lines of a probe. -/
def pattern? : KernelProbe → Option Pattern
  | .ioctl => some requestPattern
  | .info => some remarkPattern
  | .time => none

/-- Counts every recognised line of a probe. -/
def count (b : Breakdown) (lines : List String) (probe : KernelProbe) : Except Failure Breakdown :=
  match pattern? probe with
  | none => .error (.notImplemented ("Breakdown of " ++ probe.keyword ++ " lines"))
  | some p => .ok ((lines.filterMap (entryOf? p)).foldl bump b)

/-- What one more occurrence changes. -/
theorem countOf_bump (b : Breakdown) (entry : String × String) (app command : String) :
    (b.bump entry).countOf app command
      = b.countOf app command + if entry = (app, command) then 1 else 0 := by
  simp only [countOf, bump, Std.ExtTreeMap.getElem?_insert, Std.compare_eq_iff_eq]
  by_cases h : entry.1 = app
  · -- The counts of the application are replaced by those with one more.
    rw [if_pos h, Option.getD_some, Counts.get_bump, h]
    by_cases hc : entry.2 = command
    · rw [if_pos hc, if_pos (Prod.ext h hc)]
    · rw [if_neg hc, if_neg fun e => hc (congrArg Prod.snd e)]
  · rw [if_neg h, if_neg fun e => h (congrArg Prod.fst e), Nat.add_zero]

/-- Timing lines have no breakdown. -/
theorem count_time (b : Breakdown) (lines : List String) :
    b.count lines .time = .error (.notImplemented "Breakdown of TIME lines") := rfl

end Breakdown

end AccelMonitor
