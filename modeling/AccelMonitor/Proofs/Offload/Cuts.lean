import AccelMonitor.Proofs.Offload.Error
import AccelMonitor.Proofs.Offload.Samples
import AccelMonitor.Session.State

/-!
# Where a Log Is Cut

The offload time of a log against that of its pieces.

A session adds what each delta says on its own, so the total can depend on where the log
was cut into deltas. It does so in three ways. Every delta is rounded to a whole
nanosecond. Floating point sums depend on where they begin. And a delta whose sum is
negative adds nothing, while the same samples would have been taken off in a larger
delta. The first two are bounds in both directions. The third is by design and goes one
way only: cutting never loses time by it, and it gains no more than the negative sums
that were dropped.

## Main definitions

* `Offload.shortfall`: The seconds that the pieces with a negative sum are below zero.
* `KernelSnapshot.TimesOnly`: A fresh snapshot without requests.

## Theorems

* `seconds_flatten`, `size_flatten`: Exact sums do not depend on the pieces.
* `sum_max_seconds_eq`, `sum_max_seconds`: Positive parts depend on the pieces by the shortfall.
* `sum_added_near`: What all pieces add.
* `added_flatten`: What the pieces add against what the whole adds.
* `offload_flatten`: What calls in a row make of the total against one call.
* `stats_applyKernel`, `stats_foldl_applyKernel`: What snapshots make of the statistics.
* `offload_of_cuts`: The total does not depend on the cuts by more than that.
-/

namespace AccelMonitor

namespace Offload

theorem seconds_flatten (tss : List (List Binary64)) :
    seconds tss.flatten = (tss.map seconds).sum := by
  induction tss with
  | nil => rfl
  | cons ts tss ih =>
    rw [List.flatten_cons, List.map_cons, List.sum_cons, ← ih, seconds, List.map_append,
      List.sum_append]
    rfl

theorem size_flatten (tss : List (List Binary64)) : size tss.flatten = (tss.map size).sum := by
  induction tss with
  | nil => rfl
  | cons ts tss ih =>
    rw [List.flatten_cons, List.map_cons, List.sum_cons, ← ih, size, List.map_append,
      List.sum_append]
    rfl

theorem size_le_flatten {tss : List (List Binary64)} {ts : List Binary64} (h : ts ∈ tss) :
    size ts ≤ size tss.flatten := by
  rw [size_flatten]
  refine List.single_le_sum (fun q hq => ?_) _ (List.mem_map_of_mem h)
  rcases List.mem_map.mp hq with ⟨us, _, rfl⟩
  exact size_nonneg us

theorem length_le_flatten {tss : List (List Binary64)} {ts : List Binary64} (h : ts ∈ tss) :
    ts.length ≤ tss.flatten.length :=
  (List.sublist_flatten_of_mem h).length_le

/-- A piece of moderate samples is moderate. -/
theorem Moderate.part {tss : List (List Binary64)} (h : Moderate tss.flatten)
    {ts : List Binary64} (hts : ts ∈ tss) : Moderate ts where
  numbers t ht := h.numbers t (List.mem_flatten_of_mem hts ht)
  room := by
    -- A piece has fewer roundings and no larger size.
    have hgrowth : (1 + roundoff) ^ (ts.length + 1) ≤ (1 + roundoff) ^ (tss.flatten.length + 1) :=
      pow_le_pow_right₀ (by linarith [roundoff_pos]) (Nat.succ_le_succ (length_le_flatten hts))
    have hpos : 0 ≤ (1 + roundoff) ^ (tss.flatten.length + 1) := by
      linarith [one_le_growth (tss.flatten.length + 1)]
    exact lt_of_le_of_lt (mul_le_mul hgrowth (size_le_flatten hts) (size_nonneg ts) hpos) h.room

/-- The seconds that the pieces with a negative sum are below zero. -/
def shortfall (tss : List (List Binary64)) : ℚ :=
  (tss.map fun ts => max 0 (-seconds ts)).sum

theorem sum_max_nonneg (f : List Binary64 → ℚ) (tss : List (List Binary64)) :
    0 ≤ (tss.map fun ts => max 0 (f ts)).sum := by
  refine List.sum_nonneg fun q hq => ?_
  rcases List.mem_map.mp hq with ⟨ts, _, rfl⟩
  exact le_max_left ..

theorem shortfall_eq_zero {tss : List (List Binary64)} (h : ∀ ts ∈ tss, 0 ≤ seconds ts) :
    shortfall tss = 0 := by
  refine List.sum_eq_zero fun q hq => ?_
  rcases List.mem_map.mp hq with ⟨ts, hts, rfl⟩
  exact max_eq_left (by linarith [h ts hts])

/-- A number is its positive part without its negative part. -/
theorem sum_max_seconds_eq (tss : List (List Binary64)) :
    (tss.map fun ts => max 0 (seconds ts)).sum = seconds tss.flatten + shortfall tss := by
  rw [seconds_flatten, shortfall]
  induction tss with
  | nil => norm_num
  | cons ts tss ih =>
    have hone : max 0 (seconds ts) = seconds ts + max 0 (-seconds ts) := by
      rcases le_total 0 (seconds ts) with h | h
      · rw [max_eq_right h, max_eq_left (by linarith), add_zero]
      · rw [max_eq_left h, max_eq_right (by linarith), add_neg_cancel]
    simp only [List.map_cons, List.sum_cons, ih, hone]
    ring

/-- The positive parts of the pieces are at least that of the whole, and exceed it by no
    more than the shortfall. -/
theorem sum_max_seconds (tss : List (List Binary64)) :
    max 0 (seconds tss.flatten) ≤ (tss.map fun ts => max 0 (seconds ts)).sum ∧
      (tss.map fun ts => max 0 (seconds ts)).sum ≤ max 0 (seconds tss.flatten) + shortfall tss := by
  have hparts := sum_max_seconds_eq tss
  have hshort : 0 ≤ shortfall tss := sum_max_nonneg (fun ts => -seconds ts) tss
  constructor
  · refine max_le (sum_max_nonneg seconds tss) ?_
    linarith
  · rw [hparts]
    linarith [le_max_right 0 (seconds tss.flatten)]

/-- What some pieces add is near the exact times of the pieces. The bounds of the pieces add up,
    because half steps do and the drift of a piece is a multiple of its size. -/
theorem sum_added_near {n : Nat} {tss : List (List Binary64)}
    (h : ∀ ts ∈ tss, Moderate ts ∧ ts.length ≤ n) :
    |((tss.map added).sum : ℚ) - 10 ^ 9 * (tss.map fun ts => max 0 (seconds ts)).sum|
      ≤ (tss.map halfStep).sum + 10 ^ 9 * drift (n + 1) (size tss.flatten) := by
  induction tss with
  | nil => norm_num [drift, size]
  | cons ts tss ih =>
    have hrest := ih fun us hus => h us (List.mem_cons_of_mem ts hus)
    rcases h ts (List.mem_cons_self ..) with ⟨hmoderate, hlength⟩
    have hfirst := added_near hmoderate
    have hdrift : drift (ts.length + 1) (size ts) ≤ drift (n + 1) (size ts) :=
      drift_mono (Nat.succ_le_succ hlength) (size_nonneg ts)
    have htriangle := abs_add_le ((added ts : ℚ) - 10 ^ 9 * max 0 (seconds ts))
      (((tss.map added).sum : ℚ) - 10 ^ 9 * (tss.map fun ts => max 0 (seconds ts)).sum)
    -- Sizes add up, and the drift is a multiple of the size.
    have hsplit : drift (n + 1) (size (ts :: tss).flatten)
        = drift (n + 1) (size ts) + drift (n + 1) (size tss.flatten) := by
      rw [size_flatten, List.map_cons, List.sum_cons, ← size_flatten, drift, drift, drift, mul_add]
    simp only [List.map_cons, List.sum_cons, hsplit, Nat.cast_add]
    refine le_trans (le_of_eq (congrArg abs ?_)) (htriangle.trans ?_)
    · ring
    · linarith

theorem halfStep_le (ts : List Binary64) : halfStep ts ≤ 1 / 2 := by
  rw [halfStep]
  split
  · norm_num
  · exact le_rfl

/-- All the roundings to a nanosecond, of the pieces and of the whole, come to one nanosecond for
    each piece at most. Each is off by half of one, so there is room for that of the whole. -/
theorem halfSteps_le (tss : List (List Binary64)) :
    halfStep tss.flatten + (tss.map halfStep).sum ≤ tss.length := by
  have hsum : (tss.map halfStep).sum ≤ (tss.length : ℚ) / 2 := by
    induction tss with
    | nil => norm_num
    | cons ts tss ih =>
      have hfirst := halfStep_le ts
      rw [List.map_cons, List.sum_cons, List.length_cons]
      push_cast
      linarith
  -- One piece or more has half a step to spare for the whole.
  cases tss with
  | nil => norm_num [halfStep]
  | cons ts tss =>
    have hwhole := halfStep_le (ts :: tss).flatten
    have hlength : (1 : ℚ) ≤ ((ts :: tss).length : ℚ) := by
      rw [List.length_cons]
      push_cast
      linarith [(Nat.cast_nonneg tss.length : (0 : ℚ) ≤ tss.length)]
    linarith

/-- What the pieces of moderate samples add, against what the samples add at once. -/
theorem added_flatten {tss : List (List Binary64)} (h : Moderate tss.flatten) :
    (added tss.flatten : ℚ) ≤ (tss.map added).sum + tss.length + uncertainty tss.flatten ∧
      ((tss.map added).sum : ℚ) ≤ added tss.flatten + tss.length + uncertainty tss.flatten
        + 10 ^ 9 * shortfall tss := by
  have hwhole := abs_le.mp (added_near h)
  -- The pieces are moderate because the whole is, and none of them is longer.
  have hparts : ∀ ts ∈ tss, Moderate ts ∧ ts.length ≤ tss.flatten.length :=
    fun ts hts => ⟨h.part hts, length_le_flatten hts⟩
  have hpieces := abs_le.mp (sum_added_near hparts)
  have hmax := sum_max_seconds tss
  have hsteps := halfSteps_le tss
  rw [uncertainty]
  constructor
  · linarith
  · linarith

/-- Totals that differ by an error differ by no more when they are capped. -/
theorem addTotals_le {a b c : Nat} {error : ℚ} (herror : 0 ≤ error) (h : (b : ℚ) ≤ c + error) :
    (addTotals a b : ℚ) ≤ addTotals a c + error := by
  rw [addTotals, addTotals, Nat.cast_min, Nat.cast_min, Nat.cast_add, Nat.cast_add]
  rw [← min_add_add_right]
  exact min_le_min (by linarith) (by linarith)

/-- What some calls in a row make of the total. -/
theorem offload_foldl_applySamples {tss : List (List Binary64)} (h : ∀ ts ∈ tss, Moderate ts)
    {stats : Statistics} (hstats : stats.offload < Text.limit64) :
    (tss.foldl (fun stats ts => (applySamples ts stats).2) stats).offload
      = addTotals stats.offload (tss.map added).sum := by
  induction tss generalizing stats with
  | nil => exact (addTotals_zero hstats).symm
  | cons ts tss ih =>
    have hfirst := offload_applySamples (h ts (List.mem_cons_self ..)) hstats
    have hnext := offload_applySamples_lt ts hstats
    rw [List.foldl_cons, ih (fun us hus => h us (List.mem_cons_of_mem ts hus)) hnext, hfirst,
      addTotals_addTotals, List.map_cons, List.sum_cons]

theorem offload_foldl_applySamples_lt (tss : List (List Binary64)) {stats : Statistics}
    (hstats : stats.offload < Text.limit64) :
    (tss.foldl (fun stats ts => (applySamples ts stats).2) stats).offload < Text.limit64 := by
  induction tss generalizing stats with
  | nil => exact hstats
  | cons ts tss ih => exact ih (offload_applySamples_lt ts hstats)

/-- What some calls in a row make of the total, against one call with all their samples. Each
    call rounds to a nanosecond on its own, so the pieces can come apart by one for each of
    them. The second bound is the larger one: a piece whose sum is negative is dropped, while in
    one call it would have taken its part off the others. -/
theorem offload_flatten {tss : List (List Binary64)}
    (hnumbers : ∀ t ∈ tss.flatten, t.isNumber = true) {stats : Statistics}
    (hstats : stats.offload < Text.limit64) :
    ((applySamples tss.flatten stats).2.offload : ℚ)
        ≤ (tss.foldl (fun stats ts => (applySamples ts stats).2) stats).offload + tss.length
          + uncertainty tss.flatten ∧
      ((tss.foldl (fun stats ts => (applySamples ts stats).2) stats).offload : ℚ)
        ≤ (applySamples tss.flatten stats).2.offload + tss.length + uncertainty tss.flatten
          + 10 ^ 9 * shortfall tss := by
  -- What is left open is not negative, in either direction.
  have hlength : (0 : ℚ) ≤ tss.length := Nat.cast_nonneg _
  have hopen := uncertainty_nonneg tss.flatten
  have hshort : 0 ≤ shortfall tss := sum_max_nonneg (fun ts => -seconds ts) tss
  by_cases hroom : (1 + roundoff) ^ (tss.flatten.length + 1) * size tss.flatten < vast
  · -- Far from the largest number, both totals are sums that are capped once.
    have hmoderate : Moderate tss.flatten := ⟨hnumbers, hroom⟩
    rcases added_flatten hmoderate with ⟨hbelow, habove⟩
    rw [offload_applySamples hmoderate hstats,
      offload_foldl_applySamples (fun ts hts => hmoderate.part hts) hstats, add_assoc, add_assoc,
      add_assoc]
    exact ⟨addTotals_le (by linarith) (by linarith), addTotals_le (by linarith) (by linarith)⟩
  · -- Both totals are in the field, and all of it is left open.
    have hfield := limit_le_uncertainty (not_lt.mp hroom)
    have honce : ((applySamples tss.flatten stats).2.offload : ℚ) < (Text.limit64 : Nat) :=
      Nat.cast_lt.mpr (offload_applySamples_lt _ hstats)
    have hcut : ((tss.foldl (fun stats ts => (applySamples ts stats).2) stats).offload : ℚ)
        < (Text.limit64 : Nat) := Nat.cast_lt.mpr (offload_foldl_applySamples_lt tss hstats)
    constructor
    · have hnonneg : (0 : ℚ)
          ≤ (tss.foldl (fun stats ts => (applySamples ts stats).2) stats).offload :=
        Nat.cast_nonneg _
      linarith
    · have hnonneg : (0 : ℚ) ≤ (applySamples tss.flatten stats).2.offload := Nat.cast_nonneg _
      linarith

/-- The samples of some timing lines. -/
def samples (lines : List String) : List Binary64 :=
  lines.filterMap (sample? .kernel)

end Offload

/-- The snapshot is fresh and has no requests. -/
structure KernelSnapshot.TimesOnly (snapshot : KernelSnapshot) : Prop where
  fresh : snapshot.fresh = true
  requests : snapshot.delta.get .ioctl = []

/-- A fresh snapshot of timing lines. -/
def KernelSnapshot.ofTimes (lines : List String) : KernelSnapshot :=
  ⟨∅, [⟨.time, lines⟩], true⟩

theorem KernelSnapshot.timesOnly_ofTimes (lines : List String) : (ofTimes lines).TimesOnly :=
  ⟨rfl, rfl⟩

/-- The samples of a snapshot's timing lines. -/
def KernelSnapshot.samples (snapshot : KernelSnapshot) : List Binary64 :=
  Offload.samples (snapshot.delta.get .time)

namespace Session

open Offload

theorem framework_applyKernel (s : Session) (snapshot : KernelSnapshot) :
    (s.applyKernel snapshot).framework = s.framework := by
  rw [applyKernel]
  split
  · rfl
  · rfl

/-- What a snapshot of timing lines makes of the statistics. -/
theorem stats_applyKernel {s : Session} (hs : s.framework.drivesTool = true)
    {snapshot : KernelSnapshot} (h : snapshot.TimesOnly) :
    (s.applyKernel snapshot).stats = (applySamples snapshot.samples s.stats).2 := by
  rw [applyKernel, if_pos h.fresh]
  simp only [hs, if_true]
  rw [kernelOffload, h.requests, update_none _ (List.forall_mem_nil _), update]
  rfl

/-- What some snapshots of timing lines make of the statistics. -/
theorem stats_foldl_applyKernel {s : Session} (hs : s.framework.drivesTool = true)
    {cuts : List KernelSnapshot} (h : ∀ c ∈ cuts, c.TimesOnly) :
    (cuts.foldl applyKernel s).stats
      = (cuts.map KernelSnapshot.samples).foldl (fun stats ts => (applySamples ts stats).2)
        s.stats := by
  induction cuts generalizing s with
  | nil => rfl
  | cons c cuts ih =>
    have hnext : (s.applyKernel c).framework.drivesTool = true := by
      rw [framework_applyKernel]
      exact hs
    rw [List.foldl_cons, ih hnext fun d hd => h d (List.mem_cons_of_mem c hd),
      stats_applyKernel hs (h c (List.mem_cons_self ..)), List.map_cons, List.foldl_cons]

/-- The offload total of timing lines does not depend on where they were cut into deltas,
    except for three things. Every delta is rounded to a nanosecond; floating point leaves
    `uncertainty` open; and the sums that are negative on their own, and dropped, are
    missing only from the total of the pieces. In particular, where floating point leaves
    less than a nanosecond open and no delta has a negative sum, the totals differ by at
    most a nanosecond for each delta. -/
theorem offload_of_cuts {s : Session} (hs : s.framework.drivesTool = true)
    (hstats : s.stats.offload < Text.limit64) {whole : KernelSnapshot} {cuts : List KernelSnapshot}
    (hwhole : whole.TimesOnly) (hcuts : ∀ c ∈ cuts, c.TimesOnly)
    (hlines : whole.delta.get .time = cuts.flatMap fun c => c.delta.get .time) :
    ((s.applyKernel whole).stats.offload : ℚ)
        ≤ (cuts.foldl applyKernel s).stats.offload + cuts.length + uncertainty whole.samples ∧
      ((cuts.foldl applyKernel s).stats.offload : ℚ)
        ≤ (s.applyKernel whole).stats.offload + cuts.length + uncertainty whole.samples
          + 10 ^ 9 * shortfall (cuts.map KernelSnapshot.samples) ∧
      (uncertainty whole.samples < 1 → (∀ c ∈ cuts, 0 ≤ seconds c.samples) →
        (s.applyKernel whole).stats.offload
          ≤ (cuts.foldl applyKernel s).stats.offload + cuts.length ∧
        (cuts.foldl applyKernel s).stats.offload
          ≤ (s.applyKernel whole).stats.offload + cuts.length) := by
  -- However the lines were cut, they hold the same samples in the same order.
  have hflatten : whole.samples = (cuts.map KernelSnapshot.samples).flatten := by
    rw [KernelSnapshot.samples, samples, hlines, ← List.flatMap_def, List.filterMap_flatMap]
    rfl
  have hnumbers : ∀ t ∈ (cuts.map KernelSnapshot.samples).flatten, t.isNumber = true := by
    intro t ht
    rw [← hflatten] at ht
    rcases List.mem_filterMap.mp ht with ⟨line, _, hsample⟩
    exact isNumber_of_sample? hsample
  -- So the bound for samples is one for snapshots.
  have hboth := offload_flatten hnumbers hstats
  rw [← hflatten, ← stats_applyKernel hs hwhole, ← stats_foldl_applyKernel hs hcuts,
    List.length_map] at hboth
  refine ⟨hboth.1, hboth.2, fun hopen hpositive => ?_⟩
  -- No delta was dropped and less than a nanosecond is open, and totals are whole numbers.
  have hshort : shortfall (cuts.map KernelSnapshot.samples) = 0 := by
    refine shortfall_eq_zero fun ts hts => ?_
    rcases List.mem_map.mp hts with ⟨c, hc, rfl⟩
    exact hpositive c hc
  have hbelow : ((s.applyKernel whole).stats.offload : ℚ)
      < ((cuts.foldl applyKernel s).stats.offload + cuts.length + 1 : Nat) := by
    push_cast
    linarith [hboth.1]
  have habove : ((cuts.foldl applyKernel s).stats.offload : ℚ)
      < ((s.applyKernel whole).stats.offload + cuts.length + 1 : Nat) := by
    have hcut := hboth.2
    rw [hshort, mul_zero, add_zero] at hcut
    push_cast
    linarith
  exact ⟨Nat.lt_succ_iff.mp (Nat.cast_lt.mp hbelow), Nat.lt_succ_iff.mp (Nat.cast_lt.mp habove)⟩

/-- The case of a delta that takes time off again, but less than it adds. No delta is negative as
    a whole, so none is dropped. -/
theorem offload_of_cuts_half :
    ((Session.start .tflite 1).applyKernel (.ofTimes
        ["[1.0] TIME dsp: (app: benchmark_model) (ioctl) 0.0030000005",
          "[2.0] TIME dsp: (app: benchmark_model) (invoke) 0.001",
          "[3.0] TIME dsp: (app: benchmark_model) (ioctl) 0.0020000005"])).stats.offload
      ≤ ([.ofTimes ["[1.0] TIME dsp: (app: benchmark_model) (ioctl) 0.0030000005",
            "[2.0] TIME dsp: (app: benchmark_model) (invoke) 0.001"],
          .ofTimes ["[3.0] TIME dsp: (app: benchmark_model) (ioctl) 0.0020000005"]].foldl
        applyKernel (Session.start .tflite 1)).stats.offload + 2 := by
  have hstats : (Session.start .tflite 1).stats.offload < Text.limit64 := by
    decide +kernel
  have hcuts : ∀ c ∈ [KernelSnapshot.ofTimes
        ["[1.0] TIME dsp: (app: benchmark_model) (ioctl) 0.0030000005",
          "[2.0] TIME dsp: (app: benchmark_model) (invoke) 0.001"],
      .ofTimes ["[3.0] TIME dsp: (app: benchmark_model) (ioctl) 0.0020000005"]],
      c.TimesOnly := by
    simp only [List.forall_mem_cons, KernelSnapshot.timesOnly_ofTimes, true_and]
    exact List.forall_mem_nil _
  have hbound := (offload_of_cuts rfl hstats (KernelSnapshot.timesOnly_ofTimes
    ["[1.0] TIME dsp: (app: benchmark_model) (ioctl) 0.0030000005",
      "[2.0] TIME dsp: (app: benchmark_model) (invoke) 0.001",
      "[3.0] TIME dsp: (app: benchmark_model) (ioctl) 0.0020000005"]) hcuts rfl).2.2
    (by decide +kernel) (by decide +kernel)
  simp only [List.length_cons, List.length_nil, Nat.zero_add, Nat.reduceAdd] at hbound
  exact hbound.1

/-- Cuts do matter. A delta that comes out negative is dropped, although all of the lines
    together are not negative, and a sum can be too large to hold what another delta has
    counted. -/
theorem offload_depends_on_cuts :
    (0 ≤ seconds (samples ["[1.0] TIME dsp: (app: benchmark_model) (invoke) 0.003",
        "[2.0] TIME dsp: (app: benchmark_model) (ioctl) 0.004"]) ∧
      ¬ ([.ofTimes ["[1.0] TIME dsp: (app: benchmark_model) (invoke) 0.003"],
          .ofTimes ["[2.0] TIME dsp: (app: benchmark_model) (ioctl) 0.004"]].foldl
            applyKernel (Session.start .tflite 1)).stats.offload
        ≤ ((Session.start .tflite 1).applyKernel (.ofTimes
            ["[1.0] TIME dsp: (app: benchmark_model) (invoke) 0.003",
              "[2.0] TIME dsp: (app: benchmark_model) (ioctl) 0.004"])).stats.offload + 2) ∧
    (0 ≤ seconds (samples ["[1.0] TIME dsp: (app: benchmark_model) (ioctl) 1000000000",
        "[2.0] TIME dsp: (app: benchmark_model) (ioctl) 0.00000005"]) ∧
      ¬ ([.ofTimes ["[1.0] TIME dsp: (app: benchmark_model) (ioctl) 1000000000"],
          .ofTimes ["[2.0] TIME dsp: (app: benchmark_model) (ioctl) 0.00000005"]].foldl
            applyKernel (Session.start .tflite 1)).stats.offload
        ≤ ((Session.start .tflite 1).applyKernel (.ofTimes
            ["[1.0] TIME dsp: (app: benchmark_model) (ioctl) 1000000000",
              "[2.0] TIME dsp: (app: benchmark_model) (ioctl) 0.00000005"])).stats.offload + 2) := by
  refine ⟨⟨?_, ?_⟩, ?_, ?_⟩
  · decide +kernel
  · decide +kernel
  · decide +kernel
  · decide +kernel

end Session

end AccelMonitor
