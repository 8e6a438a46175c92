import AccelMonitor.Proofs.Offload.Error
import AccelMonitor.Proofs.Pattern.Derivation
import AccelMonitor.Proofs.Text.Splitting

/-!
# What Other Processes Write

An estimate adds to one number and looks at the lines of benchmark processes only.

A line is a sample of a kind if the kind's pattern matches in it, the process that the match
names is that of a benchmark, and the seconds of the match are a number. All other lines can
be there or not. A group of a match is a piece of the line, so a line in which the name of no
benchmark process stands is never a sample.

What the samples add up to can be any value of the format, and even none that is a number.
The total still does not become smaller, and it stops at the largest number of its field. No
other statistic is touched.

## Main definitions

* `Offload.IsBenchmarkName`: The name is that of a benchmark process.
* `Offload.IsSample`: The line is a sample of a kind.

## Theorems

* `Pattern.get_infix`: A group of a match is a piece of the text.
* `sample?_isSome`: The lines with a value are the samples.
* `IsSample.names_benchmark`: A sample holds the name of a benchmark process.
* `update_filter`: Only the samples count.
* `update_cases`: What an estimate can come to.
* `update_adds_only`: All of it, for every estimate.
-/

namespace AccelMonitor

namespace Pattern

/-- The places of a match lie in its text. What a group holds is a piece of the line, so a name
    that was read of a line stands in it somewhere. The induction is on the pattern and follows
    the derivation. -/
theorem Derives.place_suffix {p : Pattern} {piece rest : List Char} {g : Groups}
    (h : p.Derives piece rest g) : ∀ place ∈ g, place.2 <:+ piece ++ rest := by
  induction p generalizing piece rest g with
  | text t =>
    rw [h.2]
    exact List.forall_mem_nil _
  | one cls =>
    rw [h.2]
    exact List.forall_mem_nil _
  | run longest cls =>
    rw [h.2]
    exact List.forall_mem_nil _
  -- The places of the first part lie in the text from its beginning, those of the second in
  -- what is left of it.
  | seq p q ihp ihq =>
    rcases h with ⟨left, right, before, after, rfl, rfl, hp, hq⟩
    rw [List.forall_mem_append, List.append_assoc]
    exact ⟨ihp hp, fun place hplace => (ihq hq place hplace).trans (List.suffix_append ..)⟩
  | either p q ihp ihq =>
    rcases h with h | h
    · exact ihp h
    · exact ihq h
  | optional p ih =>
    rcases h with h | ⟨_, rfl⟩
    · exact ih h
    · exact List.forall_mem_nil _
  -- A group adds its own two ends to the places inside.
  | group i p ih =>
    rcases h with ⟨inner, rfl, h⟩
    rw [List.forall_mem_cons, List.forall_mem_append, List.forall_mem_singleton]
    exact ⟨List.suffix_rfl, ih h, List.suffix_append ..⟩
  | atEnd =>
    rw [h.2.2]
    exact List.forall_mem_nil _

/-- A group of a match is a piece of the text, or empty if it took no part. -/
theorem get_infix {p : Pattern} {s : List Char} {g : Groups} (h : p.search s = some g) (i : Nat) :
    (g.get i).toList <:+: s := by
  rcases search_eq_some h with ⟨skipped, piece, rest, rfl, hderives⟩
  rw [Groups.get]
  split
  · rename_i start stop others hplaces
    -- The group begins at one of the places.
    have hmem : start ∈ g := by
      refine (List.mem_filter (p := fun place => place.1 == i)).mp ?_ |>.1
      rw [hplaces]
      exact List.mem_cons_self ..
    rw [Groups.between, String.toList_ofList]
    exact (List.take_prefix ..).isInfix.trans
      ((hderives.place_suffix start hmem).isInfix.trans (List.suffix_append ..).isInfix)
  · exact List.nil_infix

end Pattern

namespace Offload

/-- The name begins like that of a benchmark process. Blanks around it do not count. -/
def IsBenchmarkName (name : String) : Prop :=
  ∃ process ∈ benchmarkProcesses, process.toList <+: Text.trimList name.toList

theorem belongsToBenchmark_iff {name : String} :
    belongsToBenchmark name = true ↔ IsBenchmarkName name := by
  simp only [belongsToBenchmark, List.any_eq_true, Text.startsWith, Text.trim,
    String.toList_ofList, List.isPrefixOf_iff_prefix, IsBenchmarkName]

/-- The number of the group that holds the seconds. -/
def secondsGroup : OffloadSource → Nat
  | .kernel => 3
  | .gpu | .driver => 2

/-- The line is a sample of a kind: the kind's pattern matches in it, with the name of a
    benchmark process and with seconds that are a number. -/
def IsSample (source : OffloadSource) (line : String) : Prop :=
  ∃ g, (pattern source).search line.toList = some g ∧ IsBenchmarkName (g.get 1) ∧
    ∃ t, Binary64.read (g.get (secondsGroup source)) = .ok t

/-- Seconds can be read if they are a number. -/
theorem seconds?_isSome {s : String} :
    (seconds? s).isSome = true ↔ ∃ t, Binary64.read s = .ok t := by
  rw [seconds?]
  cases Binary64.read s with
  | ok t => exact iff_of_true rfl ⟨t, rfl⟩
  | error fault => exact iff_of_false Bool.false_ne_true fun ⟨_, h⟩ => by cases h

theorem sampleOf_isSome {source : OffloadSource} {g : Groups} :
    (sampleOf source g).isSome = true ↔
      ∃ t, Binary64.read (g.get (secondsGroup source)) = .ok t := by
  rw [← seconds?_isSome]
  cases source with
  | kernel => rw [sampleOf, Option.isSome_map, secondsGroup]
  | _ => rfl

/-- The lines with a value are the samples. -/
theorem sample?_isSome {source : OffloadSource} {line : String} :
    (sample? source line).isSome = true ↔ IsSample source line := by
  rw [sample?, Pattern.find_eq_search, IsSample]
  cases (pattern source).search line.toList with
  | none => exact iff_of_false Bool.false_ne_true fun ⟨_, h, _⟩ => by cases h
  | some g =>
    simp only [Option.bind_some, Option.some.injEq, exists_eq_left', ← sampleOf_isSome,
      ← belongsToBenchmark_iff]
    cases belongsToBenchmark (g.get 1) with
    | true => simp only [if_true, true_and]
    | false => simp only [Bool.false_eq_true, if_false, Option.isSome_none, false_and]

theorem sample?_eq_none {source : OffloadSource} {line : String} :
    sample? source line = none ↔ ¬ IsSample source line := by
  rw [← sample?_isSome, Option.not_isSome_iff_eq_none]

instance (source : OffloadSource) : DecidablePred (IsSample source) :=
  fun _ => decidable_of_iff _ sample?_isSome

/-- A sample holds the name of a benchmark process. -/
theorem IsSample.names_benchmark {source : OffloadSource} {line : String}
    (h : IsSample source line) :
    ∃ process ∈ benchmarkProcesses, process.toList <:+: line.toList := by
  rcases h with ⟨g, hg, ⟨process, hprocess, hname⟩, _⟩
  refine ⟨process, hprocess, hname.isInfix.trans (List.IsInfix.trans ?_ (Pattern.get_infix hg 1))⟩
  rcases Text.exists_trimList (g.get 1).toList with ⟨before, after, hsplit, _⟩
  exact ⟨before, after, by rw [List.append_assoc, ← hsplit]⟩

/-- Only the samples among some lines count. -/
theorem update_filter (source : OffloadSource) (lines : List String) (stats : Statistics) :
    update source (lines.filter fun line => IsSample source line) stats
      = update source lines stats := by
  rw [update, update, List.filterMap_filter]
  refine congrArg (applySamples · stats) (List.filterMap_congr fun line _ => ?_)
  by_cases h : IsSample source line
  · rw [if_pos (decide_eq_true h)]
  · rw [if_neg (mt of_decide_eq_true h), sample?_eq_none.mpr h]

/-- The nanoseconds that are added fit into the field, however many seconds there are. -/
theorem nanoseconds_lt (t : Binary64) : nanoseconds t < Text.limit64 := by
  have hpos : 0 < Text.limit64 := twoTo_pos 64
  rw [nanoseconds]
  cases t.mul (.ofNat 1000000000) with
  | nan => exact hpos
  | number negative m =>
    cases negative with
    | true => exact hpos
    | false =>
      rw [Binary64.roundBelow]
      split
      · omega
      · omega

/-- There is nothing to add up if no line is a sample. -/
theorem filterMap_sample?_eq_nil {source : OffloadSource} {lines : List String} :
    lines.filterMap (sample? source) = [] ↔ ∀ line ∈ lines, ¬ IsSample source line := by
  simp only [List.filterMap_eq_nil_iff, sample?_eq_none]

/-- What an estimate can come to: there is no sample, the sum of the samples is below zero, or it
    is added as a number of nanoseconds. The statistics change in the last case only. -/
theorem update_cases (source : OffloadSource) (lines : List String) (stats : Statistics) :
    ((∀ line ∈ lines, ¬ IsSample source line) ∧
      update source lines stats = (.noSamples, stats)) ∨
    (¬ (∀ line ∈ lines, ¬ IsSample source line) ∧ ∃ t : Binary64, t.lt .zero = true ∧
      update source lines stats = (.negative t, stats)) ∨
    (¬ (∀ line ∈ lines, ¬ IsSample source line) ∧ ∃ n < Text.limit64,
      update source lines stats
        = (.applied n, { stats with offload := addTotals stats.offload n })) := by
  rw [← filterMap_sample?_eq_nil, update, applySamples]
  -- No samples, a negative sum, or a sum that is added.
  by_cases hnil : lines.filterMap (sample? source) = []
  · rw [if_pos hnil]
    exact Or.inl ⟨hnil, rfl⟩
  · rw [if_neg hnil]
    cases hsign : (total (lines.filterMap (sample? source))).lt .zero with
    | true => exact Or.inr (Or.inl ⟨hnil, _, hsign, rfl⟩)
    | false => exact Or.inr (Or.inr ⟨hnil, _, nanoseconds_lt _, rfl⟩)

/-- The capped sum is not below the total that it adds to. -/
theorem le_addTotals {a : Nat} (h : a < Text.limit64) (b : Nat) : a ≤ addTotals a b := by
  rw [addTotals]
  omega

/-- What an estimate of a kind makes of any lines and any statistics:

    * only the offload total can change;
    * there are no samples if and only if no line is one, and a sample holds the name of a
      benchmark process;
    * nanoseconds that were added fit into the field, and so does the total with them, which
      stops at the largest number;
    * without any that were added nothing changes, and a sum is only dropped if it is negative;
    * so the total never becomes smaller;
    * lines that are no samples can be put in or left out anywhere. -/
theorem update_adds_only (source : OffloadSource) (lines : List String) (stats : Statistics) :
    (update source lines stats).2
      = { stats with offload := (update source lines stats).2.offload } ∧
    ((update source lines stats).1 = .noSamples ↔ ∀ line ∈ lines, ¬ IsSample source line) ∧
    (∀ line, IsSample source line →
      ∃ process ∈ benchmarkProcesses, process.toList <:+: line.toList) ∧
    (∀ n, (update source lines stats).1 = .applied n → n < Text.limit64 ∧
      (update source lines stats).2.offload = min (stats.offload + n) (Text.limit64 - 1)) ∧
    ((∀ n, (update source lines stats).1 ≠ .applied n) → (update source lines stats).2 = stats) ∧
    (∀ t, (update source lines stats).1 = .negative t → t.lt .zero = true) ∧
    (stats.offload < Text.limit64 →
      stats.offload ≤ (update source lines stats).2.offload ∧
        (update source lines stats).2.offload < Text.limit64) ∧
    (∀ others, (others.filter fun line => IsSample source line)
        = (lines.filter fun line => IsSample source line) →
      update source others stats = update source lines stats) ∧
    (∀ before line after, lines = before ++ line :: after → ¬ IsSample source line →
      update source (before ++ after) stats = update source lines stats) := by
  -- The sum is over the samples, so lines with the same samples in the same order do the same.
  have hcongr : ∀ others, (others.filter fun line => IsSample source line)
      = (lines.filter fun line => IsSample source line) →
      update source others stats = update source lines stats := by
    intro others hsame
    rw [← update_filter, hsame, update_filter]
  have hskip : ∀ before line after, lines = before ++ line :: after → ¬ IsSample source line →
      update source (before ++ after) stats = update source lines stats := by
    rintro before line after rfl hline
    refine hcongr _ ?_
    rw [List.filter_append, List.filter_append,
      List.filter_cons_of_neg (by simpa only [decide_eq_true_eq] using hline)]
  -- No samples, a sum that is negative, or nanoseconds that are added: each clause is about one
  -- of the three and holds of the others because they do not end that way.
  rcases update_cases source lines stats with
    ⟨hnone, hupdate⟩ | ⟨hsome, t, ht, hupdate⟩ | ⟨hsome, n, hn, hupdate⟩
  · refine ⟨?_, ?_, fun _ => IsSample.names_benchmark, ?_, ?_, ?_, ?_, hcongr, hskip⟩ <;>
      rw [hupdate]
    · exact iff_of_true rfl hnone
    · exact fun _ h => nomatch h
    · exact fun _ => rfl
    · exact fun _ h => nomatch h
    · exact fun h => ⟨Nat.le_refl _, h⟩
  · refine ⟨?_, ?_, fun _ => IsSample.names_benchmark, ?_, ?_, ?_, ?_, hcongr, hskip⟩ <;>
      rw [hupdate]
    · exact iff_of_false (fun h => nomatch h) hsome
    · exact fun _ h => nomatch h
    · exact fun _ => rfl
    · rintro _ ⟨⟩
      exact ht
    · exact fun h => ⟨Nat.le_refl _, h⟩
  · refine ⟨?_, ?_, fun _ => IsSample.names_benchmark, ?_, ?_, ?_, ?_, hcongr, hskip⟩ <;>
      rw [hupdate]
    · exact iff_of_false (fun h => nomatch h) hsome
    · rintro _ ⟨⟩
      exact ⟨hn, rfl⟩
    · exact fun h => absurd rfl (h n)
    · exact fun _ h => nomatch h
    · exact fun h => ⟨le_addTotals h n, addTotals_lt ..⟩

-- Two infinite times cancel to no number at all, and what is added is nothing.
example (stats : Statistics) : (update .kernel
    ["TIME kgsl: (app: benchmark_model) (ioctl) 1e999",
      "TIME kgsl: (app: benchmark_model) (invoke) 1e999"] stats).1 = .applied 0 := rfl

end Offload

end AccelMonitor
