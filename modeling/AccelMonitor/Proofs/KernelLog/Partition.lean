import AccelMonitor.Proofs.KernelLog.Keyword
import AccelMonitor.Proofs.KernelLog.Sorting

/-!
# Sorting Is a Partition

A log sorted by probe, compared with the grammar of a single probe's lines.

All configured probes are looked for by one pattern, and a line is put into the bucket
that its group leads to. The result does not remember any of this. The bucket of a
probe holds the lines with a heading and the keyword of this probe, and a line can have
the keyword of one probe only, so every line of the log is in one bucket or unmatched.
`classify_partition` says so.

Which other probes are looked for has no influence on a bucket, and neither has the
rest of the log. Both follow from the grammar, in which neither occurs.

## Theorems

* `Buckets.eq_map_get`: Without repetition, buckets are known by their look-ups.
* `Buckets.total_add`: Adding a line adds one to the total.
* `probe?_eq_some_of_subset`: The probe of a line does not depend on the others.
* `total_classify`: A line is in a bucket or unmatched.
* `classify_partition`: All of it.
-/

namespace AccelMonitor

namespace Buckets

theorem eq_map_get {b : Buckets} (hb : b.probes.Nodup) :
    b = b.probes.map fun p => ⟨p, b.get p⟩ := by
  have hbucket : ∀ bucket ∈ b, (⟨bucket.probe, b.get bucket.probe⟩ : Bucket) = bucket := by
    intro bucket hmem
    rw [get_eq_lines hb hmem]
  rw [probes, List.map_map]
  exact ((List.map_congr_left hbucket).trans (List.map_id' b)).symm

/-- A line that is added to a listed probe is one line more. Where the probe is not listed,
    nothing is added, so the assumption is needed. -/
theorem total_add {b : Buckets} {p : KernelProbe} (hp : p ∈ b.probes) (line : String) :
    (b.add p line).total = b.total + 1 := by
  unfold add total
  induction b with
  | nil => exact absurd hp List.not_mem_nil
  | cons bucket rest ih =>
    rw [update]
    by_cases heq : bucket.probe = p
    · rw [if_pos heq]
      simp only [List.flatMap_cons, List.length_append, List.length_singleton]
      omega
    · -- The probe is that of a later bucket.
      have hrest : p ∈ Buckets.probes rest := by
        rw [probes, List.map_cons, List.mem_cons] at hp
        exact hp.resolve_left fun h => heq h.symm
      rw [if_neg heq]
      simp only [List.flatMap_cons, List.length_append, ih hrest]
      omega

end Buckets

namespace KernelLog

/-- Whether a line is one of a configured probe does not depend on the other probes. -/
theorem probe?_eq_some_of_subset {probes others : List KernelProbe} (h : probes ⊆ others)
    {p : KernelProbe} (hp : p ∈ probes) (line : String) :
    probe? others line = some p ↔ probe? probes line = some p := by
  rw [probe?_eq_some, probe?_eq_some]
  constructor
  · intro hline
    exact ⟨hp, hline.2⟩
  · intro hline
    exact ⟨h hp, hline.2⟩

/-- A probe's lines do not depend on the other probes. -/
theorem linesOf_of_subset {probes others : List KernelProbe} (h : probes ⊆ others)
    {p : KernelProbe} (hp : p ∈ probes) (log : List String) :
    linesOf others p log = linesOf probes p log := by
  unfold linesOf
  congr 1
  ext line
  rw [decide_eq_decide.mpr (probe?_eq_some_of_subset h hp line)]

/-- A probe that is not configured has no lines. -/
theorem linesOf_eq_nil {probes : List KernelProbe} {p : KernelProbe} (hp : p ∉ probes)
    (log : List String) : linesOf probes p log = [] := by
  rw [List.eq_nil_iff_forall_not_mem]
  intro line hline
  exact hp (probe?_mem (mem_linesOf.mp hline).2)

/-- Sorting more lines adds to the total as many as are matched. With those that are not matched,
    the lines add up, so none is lost and none is filed twice. -/
theorem total_foldl_place {probes : List KernelProbe} {b : Buckets} (hb : b.probes = probes)
    (log : List String) :
    (log.foldl (place probes) b).total + (log.filter fun line => probe? probes line = none).length
      = b.total + log.length := by
  -- By induction on the log, from any buckets of these probes.
  induction log generalizing b with
  | nil => rfl
  | cons line log ih =>
    rw [List.foldl_cons, place, List.filter_cons, List.length_cons]
    cases hq : probe? probes line with
    | none =>
      have hrest := ih hb
      simp only [decide_true, if_true, List.length_cons]
      omega
    | some q =>
      have hrest := ih ((Buckets.probes_add b q line).trans hb)
      have hadd := Buckets.total_add (hb ▸ probe?_mem hq) line
      simp only [reduceCtorEq, decide_false, Bool.false_eq_true, if_false]
      omega

/-- A line is in a bucket or unmatched. -/
theorem total_classify (probes : List KernelProbe) (log : List String) :
    (classify probes log).total + (log.filter fun line => probe? probes line = none).length
      = log.length := by
  have hempty : (Buckets.empty probes).total = 0 :=
    congrArg List.length (Buckets.lines_empty probes)
  have hsorted := total_foldl_place (Buckets.probes_empty probes) log
  unfold classify
  omega

/-- Without repetition, a log is sorted into a bucket for each probe, with its lines. -/
theorem classify_eq_map {probes : List KernelProbe} (h : probes.Nodup) (log : List String) :
    classify probes log = probes.map fun p => ⟨p, linesOf probes p log⟩ := by
  have hnodup : (classify probes log).probes.Nodup := by
    rw [probes_classify]
    exact h
  calc classify probes log
      = (classify probes log).probes.map fun p => ⟨p, (classify probes log).get p⟩ :=
        Buckets.eq_map_get hnodup
    _ = probes.map fun p => ⟨p, linesOf probes p log⟩ := by
        simp only [probes_classify, get_classify]

/-- A log is partitioned by the grammar of each probe's lines, for a list of probes in which
    none is repeated:

    * the probe of a line is the configured one whose keyword stands behind the line's
      heading, and a line has the keyword of one probe at most;
    * the bucket of a probe holds the lines of that probe, whole and in the order of the log,
      and together with the unmatched lines these are all;
    * two logs in a row are sorted as each of them is, bucket by bucket;
    * the order of the probes has no influence on what is looked up;
    * more probes have no influence on what is looked up by those there are. -/
theorem classify_partition {probes : List KernelProbe} (h : probes.Nodup) (log : List String) :
    (∀ line p, probe? probes line = some p ↔ p ∈ probes ∧ Headed line.toList p) ∧
    (∀ line p q, Headed line p → Headed line q → p = q) ∧
    classify probes log
      = (probes.map fun p => ⟨p, log.filter fun line => probe? probes line = some p⟩) ∧
    (classify probes log).total + (log.filter fun line => probe? probes line = none).length
      = log.length ∧
    (∀ more, classify probes (log ++ more) = List.zipWith
      (fun b c => ⟨b.probe, b.lines ++ c.lines⟩) (classify probes log) (classify probes more)) ∧
    (∀ others, others.Perm probes → ∀ p,
      (classify others log).get p = (classify probes log).get p) ∧
    ∀ others, probes ⊆ others → ∀ p ∈ probes,
      (classify others log).get p = (classify probes log).get p := by
  refine ⟨fun _ _ => probe?_eq_some, fun _ _ _ => Headed.unique, classify_eq_map h log,
    total_classify probes log, ?_, ?_, ?_⟩
  · intro more
    simp only [classify_eq_map h, linesOf_append, List.zipWith_map, List.zipWith_self]
  · intro others hperm p
    rw [get_classify, get_classify]
    by_cases hp : p ∈ probes
    · exact linesOf_of_subset hperm.symm.subset hp log
    · rw [linesOf_eq_nil hp, linesOf_eq_nil fun hmem => hp (hperm.mem_iff.mp hmem)]
  · intro others hsubset p hp
    rw [get_classify, get_classify]
    exact linesOf_of_subset hsubset hp log

/-- The case of two probes, with a digit of another script, an unmatched line and one more
    probe. -/
theorem classify_partition_two :
    [KernelProbe.time, KernelProbe.ioctl].Nodup ∧
    (classify [.time, .ioctl] ["[ 1.٣ ]  IOCTL a", "[2.0] INFO: b", "[3.0] TIME c"]).total
      + (["[ 1.٣ ]  IOCTL a", "[2.0] INFO: b", "[3.0] TIME c"].filter fun line =>
          probe? [.time, .ioctl] line = none).length = 3 ∧
    (classify KernelProbe.all ["[ 1.٣ ]  IOCTL a", "[2.0] INFO: b", "[3.0] TIME c"]).get .time
      = (classify [.time, .ioctl]
          ["[ 1.٣ ]  IOCTL a", "[2.0] INFO: b", "[3.0] TIME c"]).get .time := by
  have hnodup : [KernelProbe.time, KernelProbe.ioctl].Nodup := by decide
  rcases classify_partition hnodup
    ["[ 1.٣ ]  IOCTL a", "[2.0] INFO: b", "[3.0] TIME c"] with ⟨_, _, _, htotal, _, _, hmore⟩
  exact ⟨hnodup, htotal, hmore KernelProbe.all (by decide) .time (by decide)⟩

end KernelLog

end AccelMonitor
