import AccelMonitor.Failure
import AccelMonitor.Pattern.Basic
import AccelMonitor.Probe

/-!
# Kernel Log Lines

A line of the kernel log, its time and its probe.

The kernel writes the seconds since it started in brackets in front of every
line. A probe line then has the probe's keyword. Two readings of that beginning
are needed and they are kept apart. `probe?` recognises the shape and nothing
else, with digits of any script, and only at the very start of the line.
`time` evaluates what stands in the first pair of brackets, with blanks
before them allowed, and says what is wrong when that is no number.

## Main definitions

* `KernelLog.time`: The time of a line.
* `KernelLog.stamp`: The shape of the bracketed time in front of a keyword.
* `KernelLog.probe?`: The configured probe of a line.

## Theorems

* `probe?_mem`: A line's probe is one of the configured ones.
-/

namespace AccelMonitor

namespace KernelLog

/-- What stands between the bracket that a line starts with and the next closing one,
    without the blanks around it. -/
def bracketed? (line : List Char) : Option (List Char) :=
  match Text.dropBlanks line with
  | '[' :: rest =>
    -- A bracket that is never closed holds no time.
    if rest.contains ']' then some (Text.trimList (rest.takeWhile (· != ']'))) else none
  | _ => none

/-- The time of a line in seconds since the kernel started. Two things can be wrong: there is no
    bracketed text at the beginning of the line, or it is not a number. -/
def time (line : String) : Except Failure Binary64 :=
  match bracketed? line.toList with
  | none => .error (.missingTimestamp line)
  | some inner =>
    match Binary64.readList inner with
    | .ok t => .ok t
    | .error fault => .error (.invalidTimestamp (String.ofList inner) fault)

/-- The bracketed time in front of a keyword, and the blanks between them. -/
def stamp : Pattern :=
  .all [.str "[", .blanks, .digits1, .str ".", .digits1, .blanks, .str "]", .blanks1]

/-- One of the probes' keywords, as the group numbered by the probe's position. -/
def keywords (probe : KernelProbe) (probes : List KernelProbe) (position : Nat) : Pattern :=
  match probes with
  | [] => .group position (.str probe.keyword)
  | next :: rest =>
    .either (.group position (.str probe.keyword)) (keywords next rest (position + 1))

/-- The probe whose group took part in a match. -/
def probeAt? (groups : Groups) : List KernelProbe → Nat → Option KernelProbe
  | [], _ => none
  | p :: ps, position =>
    if (groups.lookup position).isSome then some p else probeAt? groups ps (position + 1)

/-- The probe of a line among the configured ones. The keyword has to stand right behind the
    bracketed time at the beginning of the line; the same word further on does not make it a
    probe line. -/
def probe? (probes : List KernelProbe) (line : String) : Option KernelProbe :=
  match probes with
  | [] => none
  | p :: ps =>
    ((Pattern.seq stamp (keywords p ps 1)).atStart line.toList).bind fun groups =>
      probeAt? groups (p :: ps) 1

/-- A group that took part belongs to one of the probes. -/
theorem probeAt?_mem {groups : Groups} {probes : List KernelProbe} {position : Nat}
    {p : KernelProbe} (h : probeAt? groups probes position = some p) : p ∈ probes := by
  induction probes generalizing position with
  | nil => cases h
  | cons q qs ih =>
    rw [probeAt?] at h
    split at h
    · exact Option.some.inj h ▸ List.mem_cons_self ..
    · exact List.mem_cons_of_mem _ (ih h)

/-- A line's probe is one of the configured ones. -/
theorem probe?_mem {probes : List KernelProbe} {line : String} {p : KernelProbe}
    (h : probe? probes line = some p) : p ∈ probes := by
  cases probes with
  | nil => cases h
  | cons q qs =>
    obtain ⟨groups, _, hp⟩ := Option.bind_eq_some_iff.mp h
    exact probeAt?_mem hp

end KernelLog

end AccelMonitor
