import AccelMonitor.KernelLog.Line

/-!
# Buckets of Lines

The lines of a kernel log, sorted by probe.

Every configured probe has a bucket, in the order of configuration, and keeps
its lines in the order of the log. A probe may be configured more than once; it
then has several buckets, and everything that looks a bucket up by its probe
finds the first.

## Main definitions

* `Bucket`, `Buckets`: Lines of one probe, and of all.
* `Buckets.get`: The lines of a probe.
* `Buckets.put`, `Buckets.add`: Replaces, or extends, the lines of a probe.
* `KernelLog.classify`: Sorts the lines of a log.

## Theorems

* `get_add`: What adding a line changes.
* `probes_add`: Adding a line changes no probe.
-/

namespace AccelMonitor

/-- The lines of one probe, oldest first. -/
structure Bucket where
  probe : KernelProbe
  lines : List String
deriving DecidableEq

/-- A bucket for each configured probe. -/
abbrev Buckets := List Bucket

namespace Buckets

/-- An empty bucket for each probe. -/
def empty (probes : List KernelProbe) : Buckets :=
  probes.map fun p => ⟨p, []⟩

/-- The lines in the first bucket of a probe, none if it has no bucket. -/
def get (b : Buckets) (p : KernelProbe) : List String :=
  ((b.find? fun bucket => bucket.probe = p).map Bucket.lines).getD []

/-- Changes the lines in the first bucket of a probe. -/
def update (p : KernelProbe) (f : List String → List String) : Buckets → Buckets
  | [] => []
  | bucket :: rest =>
    if bucket.probe = p then { bucket with lines := f bucket.lines } :: rest
    else bucket :: update p f rest

/-- Replaces the lines in the first bucket of a probe. -/
def put (b : Buckets) (p : KernelProbe) (lines : List String) : Buckets :=
  b.update p fun _ => lines

/-- Adds a line to the first bucket of a probe. -/
def add (b : Buckets) (p : KernelProbe) (line : String) : Buckets :=
  b.update p fun lines => lines ++ [line]

/-- No bucket holds a line. -/
def isEmpty (b : Buckets) : Bool :=
  b.all fun bucket => bucket.lines.isEmpty

/-- The number of lines in all buckets. -/
def total (b : Buckets) : Nat :=
  (b.flatMap Bucket.lines).length

/-- The probes of the buckets, in order. -/
def probes (b : Buckets) : List KernelProbe :=
  b.map Bucket.probe

/-- Changing lines changes no probe. -/
theorem probes_update (b : Buckets) (p : KernelProbe) (f : List String → List String) :
    (b.update p f).probes = b.probes := by
  induction b with
  | nil => rfl
  | cons bucket rest ih =>
    rw [update]
    split
    · rfl
    · exact congrArg (bucket.probe :: ·) ih

/-- What changing the lines of a probe changes. -/
theorem get_update (b : Buckets) (p q : KernelProbe) (f : List String → List String) :
    (b.update p f).get q = if p = q ∧ p ∈ b.probes then f (b.get q) else b.get q := by
  induction b with
  | nil =>
    rw [if_neg fun h => absurd h.2 List.not_mem_nil]
    rfl
  | cons bucket rest ih =>
    by_cases hp : bucket.probe = p
    · -- This is the bucket that changes, and the first one that is looked at.
      rw [update, if_pos hp]
      by_cases hq : p = q
      · rw [if_pos ⟨hq, by rw [probes, List.map_cons, hp]; exact List.mem_cons_self ..⟩]
        simp only [get, List.find?_cons, hp, hq, decide_true, Option.map_some, Option.getD_some]
      · rw [if_neg fun h => hq h.1]
        simp only [get, List.find?_cons, hp, hq, decide_false]
    · rw [update, if_neg hp]
      by_cases hq : bucket.probe = q
      · -- This bucket is looked up but another one changes.
        rw [if_neg fun h => hp (hq.trans h.1.symm)]
        simp only [get, List.find?_cons, hq, decide_true]
      · have hget : ∀ c : Buckets, Buckets.get (bucket :: c) q = c.get q := fun c => by
          simp only [get, List.find?_cons, hq, decide_false]
        have hmem : p ∈ Buckets.probes (bucket :: rest) ↔ p ∈ Buckets.probes rest := by
          rw [probes, List.map_cons, List.mem_cons]
          exact ⟨fun h => h.resolve_left fun e => hp e.symm, Or.inr⟩
        rw [hget, hget, ih]
        simp only [hmem]

/-- What adding a line changes. -/
theorem get_add (b : Buckets) (p q : KernelProbe) (line : String) :
    (b.add p line).get q = if p = q ∧ p ∈ b.probes then b.get q ++ [line] else b.get q :=
  get_update ..

/-- Adding a line changes no probe. -/
theorem probes_add (b : Buckets) (p : KernelProbe) (line : String) :
    (b.add p line).probes = b.probes :=
  probes_update ..

end Buckets

namespace KernelLog

/-- Adds a line to the bucket of its probe. A line of no configured probe is
    dropped. -/
def place (probes : List KernelProbe) (b : Buckets) (line : String) : Buckets :=
  match probe? probes line with
  | some p => b.add p line
  | none => b

/-- Sorts the lines of a log by probe. -/
def classify (probes : List KernelProbe) (lines : List String) : Buckets :=
  lines.foldl (place probes) (Buckets.empty probes)

/-- The probes to look for, of which there has to be one. -/
def required (probes : List KernelProbe) : Except Failure (List KernelProbe) :=
  if probes = [] then .error .noProbes else .ok probes

end KernelLog

end AccelMonitor
