import AccelMonitor.Proofs.KernelLog.Keyword
import AccelMonitor.Proofs.KernelLog.Watermark

/-!
# Repeated Probes

What configuring a probe twice does.

Every configured probe has a bucket, and a look-up finds the first one of a probe.
Sorting a log appends lines through the look-up, so the later buckets of a repeated
probe stay empty and nothing is lost. Reading what is new goes bucket by bucket and
replaces lines through the look-up: the empty walk of a later bucket overwrites
what the walk of the first one has found. A reader therefore never publishes a line
of a repeated probe, and where only such lines are new it takes the log for stale
and leaves its watermark.

The comparison is with the reader of the same probes without repetition. Buckets in
which only the first of a probe holds lines are `Tidy`, sorting and reading leave
buckets tidy, and of tidy buckets only the filled ones matter for the watermark and
for what can fail. So the two readers fail alike, and they agree in everything as
long as there is no new line of a repeated probe.

## Main definitions

* `Buckets.holding`: Buckets whose lines are given for each probe.
* `Buckets.Tidy`: Only the first bucket of a probe holds lines.
* `Buckets.filled`: The buckets that hold lines.
* `SameOutcome`: Both fail for one reason or both succeed.
* `KernelReader.Agrees`: A reader agrees with one without repeated probes.
* `KernelReader.Silences`: The same apart from the lines of repeated probes.

## Theorems

* `update_holding`: Changing the lines of a probe.
* `filled_holding`: Repetition does not change which buckets are filled.
* `filled_classify`: A log is sorted alike.
* `lastTime_filled`, `advance_filled`: Only filled buckets matter for time.
* `get_putKept`: What a reading finds in tidy buckets.
* `start_agrees`, `read_silences`, `run_agrees`: Start, step and run.
* `repeated_silenced`: The lines of repeated probes are lost and nothing else is.
* `repeated_loses`: A line that is lost.
-/

namespace AccelMonitor

/-- What holds of a list of probes if it holds of the list without its first probe and all
    repetitions of that holds of every list. -/
@[elab_as_elim]
theorem KernelProbe.induction_eraseDups {motive : List KernelProbe → Prop} (nil : motive [])
    (cons : ∀ p ps, motive (ps.filter fun q => !q == p) → motive (p :: ps))
    (probes : List KernelProbe) : motive probes :=
  match probes with
  | [] => nil
  | p :: ps => cons p ps (induction_eraseDups nil cons (ps.filter fun q => !q == p))
termination_by probes.length
decreasing_by
  rw [List.length_cons]
  exact Nat.lt_succ_of_le (List.length_filter_le _ _)

/-- A probe occurs at most once when repetitions are removed. -/
theorem KernelProbe.count_eraseDups_le (p : KernelProbe) (probes : List KernelProbe) :
    probes.eraseDups.count p ≤ 1 := by
  induction probes using KernelProbe.induction_eraseDups with
  | nil => exact Nat.zero_le _
  | cons q qs ih =>
    rw [List.eraseDups_cons]
    by_cases hq : q = p
    · subst hq
      -- Behind its first occurrence, the probe has been filtered out.
      have hnot : q ∉ (qs.filter fun r => !r == q).eraseDups := by
        rw [List.mem_eraseDups, List.mem_filter, beq_self_eq_true]
        exact fun h => absurd h.2 Bool.false_ne_true
      refine Nat.le_of_eq ?_
      rw [List.count_cons_self, List.count_eq_zero_of_not_mem hnot]
    · rw [List.count_cons_of_ne hq]
      exact ih

namespace Buckets

/-- Buckets of some probes. The first bucket of a probe holds the lines that are given for
    it, every other one nothing. -/
def holding : List KernelProbe → (KernelProbe → List String) → Buckets
  | [], _ => []
  | p :: ps, f => ⟨p, f p⟩ :: holding ps fun q => if q = p then [] else f q

/-- Only the first bucket of a probe holds lines. -/
def Tidy (b : Buckets) : Prop :=
  ∃ f, b = holding b.probes f

/-- The buckets that hold lines. -/
def filled (b : Buckets) : Buckets :=
  b.filter fun bucket => !bucket.lines.isEmpty

theorem holding_congr {probes : List KernelProbe} {f g : KernelProbe → List String}
    (h : ∀ p ∈ probes, f p = g p) : holding probes f = holding probes g := by
  induction probes generalizing f g with
  | nil => rfl
  | cons p ps ih =>
    rw [holding, holding, h p (List.mem_cons_self ..)]
    refine congrArg _ (ih fun q hq => ?_)
    rw [h q (List.mem_cons_of_mem p hq)]

theorem probes_holding (probes : List KernelProbe) (f : KernelProbe → List String) :
    (holding probes f).probes = probes := by
  induction probes generalizing f with
  | nil => rfl
  | cons p ps ih => exact congrArg (p :: ·) (ih _)

theorem get_holding {probes : List KernelProbe} (f : KernelProbe → List String)
    {p : KernelProbe} (h : p ∈ probes) : (holding probes f).get p = f p := by
  induction probes generalizing f with
  | nil => exact absurd h List.not_mem_nil
  | cons q qs ih =>
    by_cases hq : q = p
    · simp only [holding, get, List.find?_cons, hq, decide_true, Option.map_some,
        Option.getD_some]
    · have hmem : p ∈ qs := (List.mem_cons.mp h).resolve_left fun e => hq e.symm
      have hget := ih (fun r => if r = q then [] else f r) hmem
      rw [if_neg fun e => hq e.symm] at hget
      rw [← hget]
      simp only [holding, get, List.find?_cons, hq, decide_false]

theorem holding_nil (probes : List KernelProbe) : holding probes (fun _ => []) = empty probes := by
  induction probes with
  | nil => rfl
  | cons p ps ih =>
    rw [holding, empty, List.map_cons]
    refine congrArg _ (Eq.trans (holding_congr fun q _ => ?_) ih)
    exact ite_self _

/-- Changing the lines of a probe changes what is given for it. Only the first bucket of a probe
    is changed, and the later ones hold nothing, so buckets of this form keep it. -/
theorem update_holding (probes : List KernelProbe) (f : KernelProbe → List String)
    (p : KernelProbe) (change : List String → List String) :
    (holding probes f).update p change
      = holding probes fun q => if q = p then change (f q) else f q := by
  induction probes generalizing f with
  | nil => rfl
  | cons q qs ih =>
    rw [holding, update, holding]
    by_cases hq : q = p
    · -- The later buckets of this probe hold nothing, before and after.
      rw [if_pos hq, if_pos hq]
      refine congrArg _ (holding_congr fun r _ => ?_)
      by_cases hr : r = q
      · rw [if_pos hr, if_pos hr]
      · rw [if_neg hr, if_neg hr, if_neg fun e => hr (e.trans hq.symm)]
    · rw [if_neg hq, if_neg hq, ih]
      refine congrArg _ (holding_congr fun r _ => ?_)
      by_cases hr : r = q
      · rw [if_pos hr, if_pos hr, if_neg fun e => hq (hr.symm.trans e)]
      · rw [if_neg hr, if_neg hr]

theorem tidy_holding (probes : List KernelProbe) (f : KernelProbe → List String) :
    (holding probes f).Tidy :=
  ⟨f, by rw [probes_holding]⟩

theorem tidy_empty (probes : List KernelProbe) : (empty probes).Tidy := by
  rw [← holding_nil]
  exact tidy_holding probes _

theorem Tidy.update {b : Buckets} (h : b.Tidy) (p : KernelProbe)
    (change : List String → List String) : (b.update p change).Tidy := by
  rcases h with ⟨f, hb⟩
  rw [hb, update_holding]
  exact tidy_holding _ _

/-- Tidy buckets are known by what is looked up. -/
theorem Tidy.eq_holding {b : Buckets} (h : b.Tidy) : b = holding b.probes b.get := by
  rcases h with ⟨f, hb⟩
  refine hb.trans (holding_congr fun p hp => ?_)
  rw [hb, get_holding f hp]

theorem lines_cons (bucket : Bucket) (b : Buckets) :
    Buckets.lines (bucket :: b) = bucket.lines ++ b.lines :=
  List.flatMap_cons

theorem lines_holding_eq_nil {probes : List KernelProbe} {f : KernelProbe → List String}
    (h : ∀ p ∈ probes, f p = []) : (holding probes f).lines = [] := by
  rw [holding_congr h, holding_nil]
  exact lines_empty probes

/-- Tidy buckets are empty if nothing is found by looking it up. -/
theorem Tidy.isEmpty_iff {b : Buckets} (h : b.Tidy) :
    b.isEmpty = true ↔ ∀ p, b.get p = [] := by
  rw [Buckets.isEmpty_iff]
  refine ⟨get_eq_nil, fun hget => ?_⟩
  rw [h.eq_holding]
  exact lines_holding_eq_nil fun p _ => hget p

theorem filled_cons_of_nil {bucket : Bucket} (h : bucket.lines = []) (b : Buckets) :
    filled (bucket :: b) = filled b :=
  List.filter_cons_of_neg (by rw [h]; decide)

theorem filled_cons_of_ne_nil {bucket : Bucket} (h : bucket.lines ≠ []) (b : Buckets) :
    filled (bucket :: b) = bucket :: filled b :=
  List.filter_cons_of_pos (by
    rw [Bool.not_eq_true', List.isEmpty_eq_false_iff]
    exact h)

/-- The same first bucket does not change whether the filled ones are the same. -/
theorem filled_cons_congr (bucket : Bucket) {b c : Buckets} (h : filled b = filled c) :
    filled (bucket :: b) = filled (bucket :: c) := by
  by_cases hlines : bucket.lines = []
  · rw [filled_cons_of_nil hlines, filled_cons_of_nil hlines, h]
  · rw [filled_cons_of_ne_nil hlines, filled_cons_of_ne_nil hlines, h]

theorem lines_filled (b : Buckets) : (filled b).lines = b.lines := by
  induction b with
  | nil => rfl
  | cons bucket b ih =>
    by_cases hlines : bucket.lines = []
    · rw [filled_cons_of_nil hlines, ih, lines_cons, hlines, List.nil_append]
    · rw [filled_cons_of_ne_nil hlines, lines_cons, lines_cons, ih]

/-- A probe for which nothing is given has no filled bucket, so it can be left out of the list. -/
theorem filled_holding_filter (probes : List KernelProbe) (f : KernelProbe → List String)
    {p : KernelProbe} (h : f p = []) :
    filled (holding probes f) = filled (holding (probes.filter fun q => !q == p) f) := by
  induction probes generalizing f with
  | nil => rfl
  | cons q qs ih =>
    have htail := ih (fun r => if r = q then [] else f r) (by simp only [h, ite_self])
    by_cases hq : q = p
    · -- There was nothing to take away from the other buckets.
      have hsame : (fun r => if r = q then [] else f r) = f := by
        funext r
        by_cases hr : r = q
        · rw [if_pos hr, hr, hq, h]
        · rw [if_neg hr]
      rw [List.filter_cons_of_neg (by rw [hq, beq_self_eq_true]; decide), holding,
        filled_cons_of_nil (by rw [hq, h]), htail, hsame]
    · rw [List.filter_cons_of_pos (by rw [beq_false_of_ne hq]; rfl), holding, holding]
      exact filled_cons_congr _ htail

/-- Repetition does not change which buckets are filled. -/
theorem filled_holding (probes : List KernelProbe) (f : KernelProbe → List String) :
    filled (holding probes f) = filled (holding probes.eraseDups f) := by
  induction probes using KernelProbe.induction_eraseDups generalizing f with
  | nil => rfl
  | cons p ps ih =>
    rw [List.eraseDups_cons, holding, holding]
    refine filled_cons_congr _ ?_
    rw [← ih]
    exact filled_holding_filter ps _ (if_pos rfl)

end Buckets

namespace KernelLog

/-- Only which probes are configured matters for the lines of a probe. -/
theorem linesOf_eraseDups (probes : List KernelProbe) (p : KernelProbe) (log : List String) :
    linesOf probes.eraseDups p log = linesOf probes p log := by
  refine List.filter_congr fun line _ => ?_
  rw [probe?_congr fun q => List.mem_eraseDups]

/-- Sorting fills only the first bucket of a probe, so the buckets stay tidy. -/
theorem tidy_classify (probes : List KernelProbe) (log : List String) :
    (classify probes log).Tidy := by
  have hfold : ∀ b : Buckets, b.Tidy → (log.foldl (place probes) b).Tidy := by
    induction log with
    | nil => exact fun b hb => hb
    | cons line log ih =>
      intro b hb
      rw [List.foldl_cons]
      apply ih
      rw [place]
      split
      · exact hb.update _ _
      · exact hb
  exact hfold _ (Buckets.tidy_empty probes)

/-- A sorted log holds for each probe its lines. -/
theorem classify_eq_holding (probes : List KernelProbe) (log : List String) :
    classify probes log = Buckets.holding probes fun p => linesOf probes p log := by
  have h := (tidy_classify probes log).eq_holding
  rw [probes_classify] at h
  rw [h]
  exact Buckets.holding_congr fun p _ => get_classify probes log p

/-- Repetition of probes does not change what a log is sorted into. -/
theorem filled_classify (probes : List KernelProbe) (log : List String) :
    (classify probes log).filled = (classify probes.eraseDups log).filled := by
  rw [classify_eq_holding, classify_eq_holding, Buckets.filled_holding]
  simp only [linesOf_eraseDups]

/-- Empty buckets have no say in the newest time, and that is all that the repetitions of a probe
    add when a log is sorted. -/
theorem lastTime_filled (sofar : Binary64) (b : Buckets) :
    lastTime sofar b.filled = lastTime sofar b := by
  induction b generalizing sofar with
  | nil => rfl
  | cons bucket b ih =>
    -- An empty bucket has no last line, so its turn changes nothing.
    by_cases hlines : bucket.lines = []
    · rw [Buckets.filled_cons_of_nil hlines, ih, lastTime, hlines]
      rfl
    · rw [Buckets.filled_cons_of_ne_nil hlines, lastTime, lastTime]
      split
      · exact ih sofar
      · split
        · rfl
        · exact ih _

/-- Whether and why a reading fails, and the newest time that it finds, do not depend on
    empty buckets and on the delta so far. -/
theorem advance_filled (watermark : Binary64) (b delta other : Buckets) (sofar : Binary64) :
    (advance watermark b delta sofar).map Prod.snd
      = (advance watermark b.filled other sofar).map Prod.snd := by
  induction b generalizing delta other sofar with
  | nil => rfl
  | cons bucket b ih =>
    by_cases hlines : bucket.lines = []
    · rw [Buckets.filled_cons_of_nil hlines, advance, hlines]
      exact ih _ _ _
    · rw [Buckets.filled_cons_of_ne_nil hlines, advance, advance]
      split
      · rfl
      · exact ih _ _ _

/-- The walk through an empty bucket keeps nothing. -/
theorem kept_nil (watermark : Binary64) (p : KernelProbe) : kept watermark ⟨p, []⟩ = [] :=
  rfl

theorem tidy_putKept (watermark : Binary64) (walked : Buckets) {delta : Buckets}
    (h : delta.Tidy) : (putKept watermark walked delta).Tidy := by
  induction walked generalizing delta with
  | nil => exact h
  | cons bucket walked ih => exact ih (h.update _ _)

/-- What the walks through tidy buckets leave for a probe. Each walk puts what it kept in the
    place of what was there. If the probe is repeated, its lines are all in its first bucket, so
    the empty walk of a later bucket has replaced what the first one kept. The induction is on
    the probes, for any delta, since every walk leaves another one. -/
theorem get_putKept (watermark : Binary64) {probes : List KernelProbe}
    (f : KernelProbe → List String) {delta : Buckets} (hd : ∀ p ∈ probes, p ∈ delta.probes)
    {p : KernelProbe} (hp : p ∈ probes) :
    (putKept watermark (Buckets.holding probes f) delta).get p
      = if 2 ≤ probes.count p then [] else kept watermark ⟨p, f p⟩ := by
  induction probes generalizing f delta with
  | nil => exact absurd hp List.not_mem_nil
  | cons q qs ih =>
    have hprobes : (delta.put q (kept watermark ⟨q, f q⟩)).probes = delta.probes :=
      Buckets.probes_update ..
    have hrest : ∀ r ∈ qs, r ∈ (delta.put q (kept watermark ⟨q, f q⟩)).probes := by
      intro r hr
      rw [hprobes]
      exact hd r (List.mem_cons_of_mem q hr)
    rw [Buckets.holding, putKept, List.foldl_cons]
    -- The walks of the buckets behind come later, and what they put replaces what was there.
    by_cases hmem : p ∈ qs
    · refine (ih _ hrest hmem).trans ?_
      by_cases hq : p = q
      · -- There is a later bucket of this probe, and its walk has the last word.
        have htwice : 2 ≤ (q :: qs).count p := by
          rw [hq, List.count_cons_self]
          exact Nat.succ_le_succ (List.count_pos_iff.mpr (hq ▸ hmem))
        rw [if_pos hq, kept_nil, ite_self, if_pos htwice]
      · rw [if_neg hq, List.count_cons_of_ne fun e => hq e.symm]
    · -- This is the only bucket of the probe.
      have hq : p = q := (List.mem_cons.mp hp).resolve_right hmem
      subst hq
      have hnot : p ∉ (Buckets.holding qs fun r => if r = p then [] else f r).probes := by
        rw [Buckets.probes_holding]
        exact hmem
      refine (get_delta_of_not_mem hnot).trans ?_
      rw [Buckets.put, Buckets.get_update, if_pos ⟨rfl, hd p hp⟩, List.count_cons_self,
        List.count_eq_zero_of_not_mem hmem, if_neg (by decide)]

end KernelLog

/-- Both results are failures for the same reason, or both are values and these are
    related. -/
inductive SameOutcome {α β : Type} (R : α → β → Prop) :
    Except Failure α → Except Failure β → Prop where
  | failed (f : Failure) : SameOutcome R (.error f) (.error f)
  | succeeded {a : α} {b : β} (h : R a b) : SameOutcome R (.ok a) (.ok b)

namespace KernelReader

open KernelLog

/-- The second reader is without the repeated probes of the first, and the two agree in
    everything else. The deltas are compared by what is looked up in them, since the first has
    more buckets. -/
structure Agrees (r once : KernelReader) : Prop where
  probes : once.probes = r.probes.eraseDups
  utilization : once.utilization = r.utilization
  watermark : once.watermark = r.watermark
  delta : ∀ p, r.delta.get p = once.delta.get p
  counts : once.counts = r.counts
  fresh : once.fresh = r.fresh

/-- No line of a repeated probe is in a delta. -/
def Quiet (probes : List KernelProbe) (delta : Buckets) : Prop :=
  ∀ p, 2 ≤ probes.count p → delta.get p = []

instance (probes : List KernelProbe) (delta : Buckets) : Decidable (Quiet probes delta) :=
  decidable_of_iff (∀ p ∈ KernelProbe.all, 2 ≤ probes.count p → delta.get p = [])
    ⟨fun h p => h p (by cases p <;> decide), fun h p _ => h p⟩

/-- The first reader has lost the new lines of repeated probes, and agrees with the second
    if there were none. -/
structure Silences (probes : List KernelProbe) (r once : KernelReader) : Prop where
  probes_eq : r.probes = probes
  delta : ∀ p, r.delta.get p = if 2 ≤ probes.count p then [] else once.delta.get p
  agrees : Quiet probes once.delta → r.Agrees once

/-- Readers start alike: a reader starts with a log that is sorted, and nothing is published yet. -/
theorem start_agrees (probes : List KernelProbe) (utilization : KernelProbe) (answer : Answer) :
    SameOutcome Agrees (start probes utilization answer)
      (start probes.eraseDups utilization answer) := by
  cases answer with
  | error f => exact .failed _
  | ok log =>
    -- Both look at the same filled buckets.
    have htime : lastTime .zero (classify probes.eraseDups log)
        = lastTime .zero (classify probes log) := by
      rw [← lastTime_filled, ← filled_classify, lastTime_filled]
    rw [start, start, htime]
    cases lastTime .zero (classify probes log) with
    | error f => exact .failed f
    | ok time =>
      refine .succeeded ⟨rfl, rfl, rfl, fun p => ?_, rfl, rfl⟩
      rw [get_classify, get_classify, linesOf_eraseDups]

/-- What a reading finds for a probe. -/
theorem get_deltaOf_repeated (r : KernelReader) (log : List String) {p : KernelProbe}
    (hp : p ∈ r.probes) :
    (r.deltaOf log).get p = if 2 ≤ r.probes.count p then []
      else kept r.watermark ⟨p, linesOf r.probes p log⟩ := by
  rw [deltaOf, classify_eq_holding]
  refine get_putKept r.watermark _ (fun q hq => ?_) hp
  rw [Buckets.probes_empty]
  exact hq

theorem tidy_deltaOf (r : KernelReader) (log : List String) : (r.deltaOf log).Tidy :=
  tidy_putKept _ _ (Buckets.tidy_empty _)

theorem get_deltaOf_of_not_mem (r : KernelReader) (log : List String) {p : KernelProbe}
    (hp : p ∉ r.probes) : (r.deltaOf log).get p = [] := by
  have hnot : p ∉ (classify r.probes log).probes := by
    rw [probes_classify]
    exact hp
  exact (get_delta_of_not_mem hnot).trans (Buckets.get_eq_nil (Buckets.lines_empty _) p)

namespace Agrees

variable {r once : KernelReader}

/-- What the two readers find in a log: the same, but for repeated probes, for which the reader
    with the repetitions finds nothing. -/
theorem get_deltaOf (h : r.Agrees once) (log : List String) (p : KernelProbe) :
    (r.deltaOf log).get p = if 2 ≤ r.probes.count p then [] else (once.deltaOf log).get p := by
  by_cases hp : p ∈ r.probes
  · -- The reader without repetitions has the probe just once, so it keeps the lines.
    have hmem : p ∈ once.probes := by
      rw [h.probes]
      exact List.mem_eraseDups.mpr hp
    have honce : ¬ 2 ≤ once.probes.count p := by
      rw [h.probes]
      exact Nat.not_lt.mpr (KernelProbe.count_eraseDups_le p r.probes)
    rw [get_deltaOf_repeated r log hp, get_deltaOf_repeated once log hmem, if_neg honce,
      h.watermark, h.probes, linesOf_eraseDups]
  · have hmem : p ∉ once.probes := by
      rw [h.probes]
      exact fun hp' => hp (List.mem_eraseDups.mp hp')
    rw [get_deltaOf_of_not_mem r log hp, get_deltaOf_of_not_mem once log hmem, ite_self]

/-- Whether and why a reading fails, and the newest time, are the same. -/
theorem advance (h : r.Agrees once) (log : List String) (delta other : Buckets) :
    (KernelLog.advance r.watermark (classify r.probes log) delta r.watermark).map Prod.snd
      = (KernelLog.advance once.watermark (classify once.probes log) other
          once.watermark).map Prod.snd := by
  rw [advance_filled _ _ _ other, advance_filled _ (classify once.probes log) _ other,
    filled_classify, h.probes, h.watermark]

/-- Agreeing readers that accept agreeing deltas still agree. -/
theorem accept (h : r.Agrees once) {delta other : Buckets} (htidy : delta.Tidy)
    (htidy' : other.Tidy) (hget : ∀ p, delta.get p = other.get p) (time : Binary64) :
    (r.accept delta time).Agrees (once.accept other time) := by
  have hempty : other.isEmpty = delta.isEmpty := by
    rw [Bool.eq_iff_iff, htidy.isEmpty_iff, htidy'.isEmpty_iff]
    simp only [hget]
  rw [KernelReader.accept, KernelReader.accept, hempty]
  cases delta.isEmpty with
  | true =>
    refine ⟨h.probes, h.utilization, h.watermark, hget, ?_, rfl⟩
    exact congrArg Counts.zeroed h.counts
  | false => exact ⟨h.probes, h.utilization, rfl, hget, h.counts, rfl⟩

/-- Counting is the same for agreeing readers. -/
theorem count (h : r.Agrees once) (full : Bool) (threshold : Binary64) :
    SameOutcome Agrees (r.count full threshold) (once.count full threshold) := by
  rw [KernelReader.count, KernelReader.count, h.utilization, ← h.delta r.utilization]
  cases eligible full threshold (r.delta.get r.utilization) with
  | error f => exact .failed f
  | ok lines =>
    refine .succeeded ⟨h.probes, rfl, h.watermark, h.delta, ?_, h.fresh⟩
    exact congrArg (fun counts => countDrivers r.utilization counts.zeroed lines) h.counts

end Agrees

theorem delta_accept (r : KernelReader) (delta : Buckets) (time : Binary64) :
    (r.accept delta time).delta = delta := by
  rw [accept]
  split
  · rfl
  · rfl

theorem probes_accept (r : KernelReader) (delta : Buckets) (time : Binary64) :
    (r.accept delta time).probes = r.probes := by
  rw [accept]
  split
  · rfl
  · rfl

/-- Accepting what was found loses the lines of repeated probes. If there were none, the readers
    accept the same and go on to agree. -/
theorem Agrees.accept_silences {r once : KernelReader} (h : r.Agrees once) (log : List String)
    (time : Binary64) :
    Silences r.probes (r.accept (r.deltaOf log) time) (once.accept (once.deltaOf log) time) := by
  refine ⟨probes_accept .., fun p => ?_, fun hquiet => ?_⟩
  · rw [delta_accept, delta_accept]
    exact h.get_deltaOf log p
  · refine h.accept (tidy_deltaOf r log) (tidy_deltaOf once log) (fun p => ?_) time
    rw [delta_accept] at hquiet
    rw [h.get_deltaOf log p]
    split
    · rename_i htwice
      exact (hquiet p htwice).symm
    · rfl

/-- Counting leaves all that was lost as it is. -/
theorem Silences.count {probes : List KernelProbe} {r once r₁ once₁ : KernelReader}
    (h : Silences probes r once) {full : Bool} {threshold : Binary64}
    (hr : r.count full threshold = .ok r₁) (honce : once.count full threshold = .ok once₁) :
    Silences probes r₁ once₁ := by
  have hdelta : r₁.probes = r.probes ∧ r₁.delta = r.delta ∧ once₁.delta = once.delta := by
    rcases count_eq_ok hr with ⟨_, _, rfl⟩
    rcases count_eq_ok honce with ⟨_, _, rfl⟩
    exact ⟨rfl, rfl, rfl⟩
  refine ⟨hdelta.1.trans h.probes_eq, fun p => ?_, fun hquiet => ?_⟩
  · rw [hdelta.2.1, hdelta.2.2]
    exact h.delta p
  · rw [hdelta.2.2] at hquiet
    -- Readers that agree count alike, so they agree afterwards.
    have hsame := (h.agrees hquiet).count full threshold
    rw [hr, honce] at hsame
    cases hsame with
    | succeeded hagrees => exact hagrees

/-- Agreeing readers fail alike, or both read the log and the first loses the lines of its
    repeated probes. The walks come before the counting, and they fail at the same line on both
    sides, so a failure is the same one. Where they succeed, counting cannot fail any more,
    since it only reads times that the walks have read. -/
theorem read_silences {r once : KernelReader} (h : r.Agrees once) (p : KernelPoll) :
    SameOutcome (Silences r.probes) (r.read p) (once.read p) := by
  rcases p with ⟨reading, answer⟩
  -- Without an answer both fail with its failure.
  cases answer with
  | error f =>
    cases reading with
    | plain => exact .failed _
    | counted full threshold => exact .failed _
  | ok log =>
    -- The walks of both meet the same lines: a repeated bucket is empty, and its walk takes
    -- none.
    have hsame := h.advance log (Buckets.empty r.probes) (Buckets.empty once.probes)
    cases hr : KernelLog.advance r.watermark (classify r.probes log) (Buckets.empty r.probes)
      r.watermark with
    | error f =>
      cases honce : KernelLog.advance once.watermark (classify once.probes log)
        (Buckets.empty once.probes) once.watermark with
      | ok found =>
        rw [hr, honce] at hsame
        cases hsame
      | error g =>
        rw [hr, honce] at hsame
        cases hsame
        -- A line without a time ends both readings.
        have hnext : r.next (.ok log) = .error f := by rw [next, hr]; rfl
        have hnext' : once.next (.ok log) = .error f := by rw [next, honce]; rfl
        cases reading with
        | plain =>
          simp only [read, hnext, hnext']
          exact .failed f
        | counted full threshold =>
          simp only [read, nextCounted, hnext, hnext']
          exact .failed f
    | ok found =>
      cases honce : KernelLog.advance once.watermark (classify once.probes log)
        (Buckets.empty once.probes) once.watermark with
      | error g =>
        rw [hr, honce] at hsame
        cases hsame
      | ok found' =>
        -- Both have read the log, and the newest time is the same.
        rcases advance_eq_ok.mp hr with ⟨hwalks, rfl⟩
        rcases advance_eq_ok.mp honce with ⟨hwalks', rfl⟩
        rw [hr, honce] at hsame
        have htime : once.newestOf log = r.newestOf log := (Except.ok.inj hsame).symm
        have hfound := h.accept_silences log (r.newestOf log)
        cases reading with
        | plain =>
          simp only [read, next_of_walks hwalks, next_of_walks hwalks', htime]
          exact .succeeded hfound
        | counted full threshold =>
          -- Counting succeeds on both sides, for the walks have read all times.
          rcases exists_read (.counted full threshold) hwalks with ⟨r₁, hread⟩
          rcases exists_read (.counted full threshold) hwalks' with ⟨once₁, hread'⟩
          rw [hread, hread']
          simp only [read, nextCounted, next_of_walks hwalks] at hread
          simp only [read, nextCounted, next_of_walks hwalks', htime] at hread'
          exact .succeeded (hfound.count hread hread')

/-- After a poll that brings no line of a repeated probe the readers agree. -/
theorem poll_agrees {r once : KernelReader} (h : r.Agrees once) {p : KernelPoll}
    (hquiet : ∀ s ∈ once.publication p, Quiet r.probes s.delta) :
    (r.poll p).Agrees (once.poll p) ∧ (r.poll p).probes = r.probes := by
  have hread := read_silences h p
  rw [publication] at hquiet
  rw [poll, poll]
  revert hread hquiet
  generalize r.read p = reading
  generalize once.read p = reading'
  intro hquiet hread
  cases hread with
  | failed f => exact ⟨h, rfl⟩
  | succeeded hsilences =>
    exact ⟨hsilences.agrees (hquiet _ (List.mem_singleton_self _)), hsilences.probes_eq⟩

/-- After any polls that bring no line of a repeated probe the readers agree. -/
theorem run_agrees {r once : KernelReader} (h : r.Agrees once) {polls : List KernelPoll}
    (hquiet : ∀ s ∈ once.publications polls, Quiet r.probes s.delta) :
    (r.run polls).Agrees (once.run polls) ∧ (r.run polls).probes = r.probes := by
  induction polls generalizing r once with
  | nil => exact ⟨h, rfl⟩
  | cons p polls ih =>
    rw [publications, List.forall_mem_append] at hquiet
    rcases poll_agrees h hquiet.1 with ⟨hagrees, hprobes⟩
    rw [← hprobes] at hquiet ⊢
    exact ih hagrees hquiet.2

/-- No publication holds a line of a repeated probe. In every poll the later bucket of the probe
    is walked as well, finds nothing and replaces what was found. -/
theorem publications_quiet (r : KernelReader) (polls : List KernelPoll) :
    ∀ s ∈ r.publications polls, Quiet r.probes s.delta := by
  induction polls generalizing r with
  | nil => exact List.forall_mem_nil _
  | cons p polls ih =>
    rw [publications, List.forall_mem_append]
    rcases poll_cases r p with ⟨hpoll, hnone⟩ | ⟨log, _, _, hupdated, hone⟩
    · rw [hpoll, hnone]
      exact ⟨List.forall_mem_nil _, ih r⟩
    · rw [hone, List.forall_mem_singleton]
      -- The second bucket of the probe replaces its lines by none.
      refine ⟨fun q htwice => ?_, ?_⟩
      · have hmem : q ∈ r.probes :=
          List.count_pos_iff.mp (Nat.lt_of_lt_of_le Nat.zero_lt_two htwice)
        rw [published, hupdated.delta, get_deltaOf_repeated r log hmem, if_pos htwice]
      · have hrest := ih (r.poll p)
        rw [hupdated.probes] at hrest
        exact hrest

/-- What repeating probes does, compared with the same probes without repetition:

    * sorting a log is not affected, neither what is looked up nor the number of lines;
    * a reader fails to start for the same reason or starts in agreement;
    * it never publishes a line of a repeated probe;
    * as long as the reader without repetition publishes none either, the two agree, and the
      next poll fails for the same reason or publishes the same but for the lines of
      repeated probes, which are lost. -/
theorem repeated_silenced (probes : List KernelProbe) (utilization : KernelProbe)
    (answer : Answer) :
    (∀ log, (∀ p, (classify probes log).get p = (classify probes.eraseDups log).get p) ∧
      (classify probes log).total = (classify probes.eraseDups log).total) ∧
    SameOutcome Agrees (start probes utilization answer)
      (start probes.eraseDups utilization answer) ∧
    ∀ r once, start probes utilization answer = .ok r →
      start probes.eraseDups utilization answer = .ok once → ∀ polls : List KernelPoll,
      (∀ s ∈ r.publications polls, Quiet probes s.delta) ∧
      ((∀ s ∈ once.publications polls, Quiet probes s.delta) →
        (r.run polls).Agrees (once.run polls) ∧
        ∀ p, SameOutcome (Silences probes) ((r.run polls).read p) ((once.run polls).read p)) := by
  refine ⟨fun log => ⟨fun p => ?_, ?_⟩, start_agrees probes utilization answer, ?_⟩
  · rw [get_classify, get_classify, linesOf_eraseDups]
  · -- The number of lines is that of the filled buckets, which are the same.
    have hlines : (classify probes log).lines = (classify probes.eraseDups log).lines := by
      rw [← Buckets.lines_filled, filled_classify, Buckets.lines_filled]
    exact congrArg List.length hlines
  -- From the start on the two run side by side, each poll by the lemma for one.
  · intro r once hr honce polls
    have hagrees := start_agrees probes utilization answer
    rw [hr, honce] at hagrees
    rcases start_eq_ok hr with ⟨_, _, rfl, _⟩
    cases hagrees with
    | succeeded hagrees =>
      refine ⟨publications_quiet r polls, fun hquiet => ?_⟩
      rcases run_agrees hagrees hquiet with ⟨hrun, hprobes⟩
      refine ⟨hrun, fun p => ?_⟩
      rw [← hprobes]
      exact read_silences hrun p

/-- The case of lines of the probe that is not repeated, with a poll that fails. Nothing was
    published for the repeated probe, so the reader goes on as one without the repetition. -/
theorem repeated_silenced_other :
    ∃ r once, start [.ioctl, .time, .ioctl] .ioctl (.ok ["[1.0] TIME dsp: a"]) = .ok r ∧
      start [.ioctl, .time] .ioctl (.ok ["[1.0] TIME dsp: a"]) = .ok once ∧
      (∀ s ∈ once.publications [⟨.counted true .zero, .ok ["[2.0] TIME dsp: b"]⟩,
        ⟨.plain, .error ⟨"dmesg", "gone"⟩⟩], Quiet [.ioctl, .time, .ioctl] s.delta) ∧
      (r.run [⟨.counted true .zero, .ok ["[2.0] TIME dsp: b"]⟩,
          ⟨.plain, .error ⟨"dmesg", "gone"⟩⟩]).Agrees
        (once.run [⟨.counted true .zero, .ok ["[2.0] TIME dsp: b"]⟩,
          ⟨.plain, .error ⟨"dmesg", "gone"⟩⟩]) := by
  have hquiet : ((start [.ioctl, .time] .ioctl (.ok ["[1.0] TIME dsp: a"])).map fun once =>
      decide (∀ s ∈ once.publications [⟨.counted true .zero, .ok ["[2.0] TIME dsp: b"]⟩,
        ⟨.plain, .error ⟨"dmesg", "gone"⟩⟩], Quiet [.ioctl, .time, .ioctl] s.delta)).toOption
      = some true := by
    decide +kernel
  -- The runs are those that the theorem speaks of, once the readers have been computed.
  have h := repeated_silenced [.ioctl, .time, .ioctl] .ioctl (.ok ["[1.0] TIME dsp: a"])
  rcases h with ⟨_, hsame, hrun⟩
  have hdups : [KernelProbe.ioctl, .time, .ioctl].eraseDups = [.ioctl, .time] := by decide
  rw [hdups] at hsame hrun
  revert hsame
  generalize hr : start [.ioctl, .time, .ioctl] .ioctl (.ok ["[1.0] TIME dsp: a"]) = started
  generalize honce : start [.ioctl, .time] .ioctl (.ok ["[1.0] TIME dsp: a"]) = started'
  rw [honce] at hquiet
  rintro (f | ⟨_⟩)
  · cases hquiet
  · rename_i r once _
    have hq := of_decide_eq_true (Option.some.inj hquiet)
    exact ⟨r, once, rfl, rfl, hq, ((hrun r once hr honce _).2 hq).1⟩

/-- A line that is lost: the probe is configured twice, and the first line of it is new. The
    reader takes the log for stale and stays behind. -/
theorem repeated_loses :
    ∃ r once, start [.ioctl, .ioctl] .ioctl (.ok []) = .ok r ∧
      start [KernelProbe.ioctl, .ioctl].eraseDups .ioctl (.ok []) = .ok once ∧
      (r.poll ⟨.plain, .ok ["[1.0] IOCTL kgsl: a"]⟩).delta.get .ioctl = [] ∧
      (once.poll ⟨.plain, .ok ["[1.0] IOCTL kgsl: a"]⟩).delta.get .ioctl
        = ["[1.0] IOCTL kgsl: a"] ∧
      (r.poll ⟨.plain, .ok ["[1.0] IOCTL kgsl: a"]⟩).fresh = false ∧
      (once.poll ⟨.plain, .ok ["[1.0] IOCTL kgsl: a"]⟩).fresh = true ∧
      (r.poll ⟨.plain, .ok ["[1.0] IOCTL kgsl: a"]⟩).watermark = .zero ∧
      (once.poll ⟨.plain, .ok ["[1.0] IOCTL kgsl: a"]⟩).watermark ≠ .zero := by
  refine ⟨_, _, rfl, rfl, ?_⟩
  decide +kernel

end KernelReader

end AccelMonitor
