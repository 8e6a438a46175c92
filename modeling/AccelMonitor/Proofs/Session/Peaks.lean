import AccelMonitor.Proofs.Session.Streams
import AccelMonitor.Proofs.Text.Pieces
import AccelMonitor.Session.Display

/-!
# Peaks

The largest counts that a session was told, and what is displayed of them.

Counts are replaced by every snapshot of the kernel log, and the peaks are raised to them.
Nothing else touches either of the two: a benchmark that is tracked clears the results but
not the peaks. So both can be said in one equation of the snapshots alone. The counts are
those of the last snapshot, and the peak of a name is the largest of all the numbers that
the snapshots gave it, if any of them gave it one.

The display goes by the names of the peaks and looks the counts up. The two have different
names in general, since a name that an earlier snapshot listed can be missing from the last
one. But the last snapshot is one of those that raised the peaks, so its names are all there,
and no count is above its peak.

## Main definitions

* `Display.Shown`, `Display.shown`: What the display lists.
* `Session.Told`: What a session knows of the snapshots.

## Theorems

* `max?_append`: The largest of some numbers, found in two steps.
* `getElem?_raisePeaks`: What some counts make of a peak.
* `counts_peaks_step`: What an event does to the counts and the peaks.
* `counts_run`, `peaks_run`: The counts and the peaks after any events.
* `mem_shown`: What is displayed.
* `countsText_iff`: When there is nothing to display.
* `Told.count_le_peak`, `Told.shown_eq_nil_iff`: Counts and display after some snapshots.
* `peaks_dominate`: The peaks after any events, and their display.
-/

namespace AccelMonitor

section Largest

/-- The largest of some numbers, found in two steps. -/
theorem max?_append (front rest : List Nat) :
    (front.max?.toList ++ rest).max? = (front ++ rest).max? := by
  cases front with
  | nil => rfl
  | cons n front =>
    rw [List.max?_cons', List.cons_append, List.max?_cons', List.foldl_append]
    rfl

/-- A number is at most the largest of those that it is among. -/
theorem le_max? {numbers : List Nat} {n : Nat} (h : n ∈ numbers) :
    ∃ m, numbers.max? = some m ∧ n ≤ m := by
  cases hmax : numbers.max? with
  | none =>
    rw [List.max?_eq_none_iff.mp hmax] at h
    exact absurd h List.not_mem_nil
  | some m => exact ⟨m, rfl, (List.max?_eq_some_iff.mp hmax).2 n h⟩

end Largest

namespace Counts

theorem getElem?_raise (counts : Counts) (name other : String) (n : Nat) :
    (counts.raise name n)[other]?
      = if name = other then some (max (counts.get other) n) else counts[other]? := by
  simp only [raise, Std.ExtTreeMap.getElem?_insert, Std.compare_eq_iff_eq]
  by_cases h : name = other
  · rw [if_pos h, if_pos h, h]
  · rw [if_neg h, if_neg h]

/-- The numbers that some entries give a name. -/
def numbersOf (name : String) (entries : List (String × Nat)) : List Nat :=
  entries.filterMap fun e => if e.1 = name then some e.2 else none

/-- Counts give a name at most one number, the one that is looked up. The keys of the entries
    are different, so that reading all entries of a name is the same as looking it up, and what
    is displayed can be compared with either. -/
theorem numbersOf_toList (counts : Counts) (name : String) :
    numbersOf name counts.toList = counts[name]?.toList := by
  have hmem : ∀ n, (name, n) ∈ counts.toList ↔ counts[name]? = some n := fun n =>
    Std.ExtTreeMap.mem_toList_iff_getElem?_eq_some
  have hdistinct := Std.ExtTreeMap.distinct_keys_toList (t := counts)
  simp only [Std.compare_eq_iff_eq] at hdistinct
  -- By induction on the entries, whatever the number is that they give the name.
  generalize counts[name]? = number at hmem
  generalize counts.toList = entries at hmem hdistinct
  induction entries generalizing number with
  | nil =>
    cases number with
    | none => rfl
    | some n => exact absurd ((hmem n).mpr rfl) List.not_mem_nil
  | cons e entries ih =>
    rw [List.pairwise_cons] at hdistinct
    rw [numbersOf, List.filterMap_cons]
    by_cases he : e.1 = name
    · -- This entry gives the number, and no other one has the name.
      have hnumber : number = some e.2 := by
        refine ((hmem e.2).mp ?_)
        rw [← he]
        exact List.mem_cons_self ..
      have hrest : numbersOf name entries = [] := by
        refine List.filterMap_eq_nil_iff.mpr fun d hd => if_neg fun hname => ?_
        exact hdistinct.1 d hd (he.trans hname.symm)
      rw [numbersOf] at hrest
      rw [if_pos he, hnumber, hrest]
      rfl
    · rw [if_neg he]
      refine ih number (fun n => ?_) hdistinct.2
      rw [← hmem n, List.mem_cons]
      refine ⟨Or.inr, fun h => h.resolve_left ?_⟩
      rintro rfl
      exact he rfl

end Counts

namespace Session

open Counts

/-- What some counts make of a peak: the larger of it and the number of the name, or the one of
    them that there is. A name that neither lists has no peak. -/
theorem getElem?_raisePeaks (peaks counts : Counts) (name : String) :
    (raisePeaks peaks counts)[name]? = (peaks[name]?.toList ++ counts[name]?.toList).max? := by
  rw [← numbersOf_toList counts name, raisePeaks]
  generalize counts.toList = entries
  induction entries generalizing peaks with
  | nil =>
    cases hpeak : peaks[name]? with
    | none => exact hpeak
    | some n => exact hpeak
  | cons e entries ih =>
    rw [List.foldl_cons, ih, getElem?_raise, numbersOf, numbersOf, List.filterMap_cons]
    by_cases he : e.1 = name
    · rw [if_pos he, if_pos he, Counts.get]
      cases peaks[name]? with
      | none =>
        rw [Option.getD_none, Nat.zero_max]
        rfl
      | some n => rfl
    · rw [if_neg he, if_neg he]

/-- An event replaces the counts and raises the peaks if it is a snapshot of the kernel log, and
    no other event touches them. A new benchmark does not reset them either, which is why the
    peaks of a whole run are those of all its snapshots. -/
theorem counts_peaks_step (s : Session) (event : SessionEvent) :
    (s.step event).counts = event.kernel?.elim s.counts KernelSnapshot.counts ∧
      (s.step event).peaks
        = event.kernel?.elim s.peaks fun snapshot => raisePeaks s.peaks snapshot.counts := by
  cases event with
  | kernel snapshot =>
    rw [step, applyKernel_eq]
    exact ⟨rfl, rfl⟩
  | device snapshot =>
    rw [step, applyDevice_eq]
    exact ⟨rfl, rfl⟩
  | loads loads => exact ⟨rfl, rfl⟩
  | track framework => exact ⟨rfl, rfl⟩
  | deliver number result =>
    rcases updateHandle_eq s number (·.deliver result) with ⟨pending, heq⟩
    rw [step, deliver, heq]
    exact ⟨rfl, rfl⟩
  | abandon number =>
    rcases updateHandle_eq s number Handle.abandon with ⟨pending, heq⟩
    rw [step, abandon, heq]
    exact ⟨rfl, rfl⟩
  | poll =>
    rw [step, poll, pollFrom_eq]
    exact ⟨rfl, rfl⟩
  | clear => exact ⟨rfl, rfl⟩

/-- The counts after any events are those of the last snapshot. They are replaced and not added
    up, and no other event changes them. -/
theorem counts_run (s : Session) (events : List SessionEvent) :
    (s.run events).counts
      = ((events.filterMap SessionEvent.kernel?).getLast?.map KernelSnapshot.counts).getD
        s.counts := by
  have hstep : ∀ event ∈ events, ∀ s : Session,
      (s.step event).counts = event.kernel?.elim s.counts KernelSnapshot.counts :=
    fun event _ s => (counts_peaks_step s event).1
  rw [run_part Session.counts SessionEvent.kernel? (fun _ snapshot => snapshot.counts) hstep]
  generalize events.filterMap SessionEvent.kernel? = snapshots
  rcases List.eq_nil_or_concat snapshots with rfl | ⟨front, last, rfl⟩
  · rfl
  · rw [List.concat_eq_append, List.foldl_append, List.getLast?_concat]
    rfl

/-- The peak of a name after any events is the largest number that a snapshot gave it. -/
theorem peaks_run (s : Session) (events : List SessionEvent) (name : String) :
    (s.run events).peaks[name]?
      = (s.peaks[name]?.toList ++ (events.filterMap SessionEvent.kernel?).filterMap
        fun snapshot => snapshot.counts[name]?).max? := by
  have hstep : ∀ event ∈ events, ∀ s : Session, (s.step event).peaks
      = event.kernel?.elim s.peaks fun snapshot => raisePeaks s.peaks snapshot.counts :=
    fun event _ s => (counts_peaks_step s event).2
  rw [run_part Session.peaks SessionEvent.kernel?
    (fun peaks snapshot => raisePeaks peaks snapshot.counts) hstep]
  generalize s.peaks = peaks
  generalize events.filterMap SessionEvent.kernel? = snapshots
  induction snapshots generalizing peaks with
  | nil =>
    cases hpeak : peaks[name]? with
    | none => exact hpeak
    | some n => exact hpeak
  | cons snapshot snapshots ih =>
    -- The snapshot raises the peak, and the others raise it further.
    rw [List.foldl_cons, ih, getElem?_raisePeaks, max?_append, List.append_assoc,
      List.filterMap_cons]
    cases snapshot.counts[name]? with
    | none => rfl
    | some n => rfl

end Session

namespace Display

/-- A name as it is displayed. -/
structure Shown where
  name : String
  current : Nat
  peak : Nat

/-- The text of a name as it is displayed. -/
def Shown.text (e : Shown) : String :=
  e.name ++ "=" ++ natText e.current ++ " (" ++ natText e.peak ++ ")"

/-- The names that are displayed. -/
def shown (counts peaks : Counts) : List Shown :=
  (peaks.toList.filter fun e => 0 < e.2).map fun e => ⟨e.1, counts.get e.1, e.2⟩

theorem listed_eq (counts peaks : Counts) :
    listed counts peaks = (shown counts peaks).map Shown.text := by
  rw [listed, shown, List.map_map]
  rfl

theorem countsText_eq (counts peaks : Counts) :
    countsText counts peaks
      = if (shown counts peaks).isEmpty then "no accelerator activity"
        else Text.join " " ((shown counts peaks).map Shown.text) := by
  rw [countsText, listed_eq]
  cases shown counts peaks with
  | nil => rfl
  | cons e rest => rfl

/-- Displayed are the names whose peak is not zero, with their counts and peaks. -/
theorem mem_shown {counts peaks : Counts} {e : Shown} :
    e ∈ shown counts peaks
      ↔ peaks[e.name]? = some e.peak ∧ 0 < e.peak ∧ e.current = counts.get e.name := by
  rcases e with ⟨name, current, peak⟩
  rw [shown, List.mem_map]
  constructor
  · rintro ⟨d, hd, heq⟩
    rw [List.mem_filter, decide_eq_true_eq] at hd
    rw [Shown.mk.injEq] at heq
    rcases heq with ⟨rfl, rfl, rfl⟩
    exact ⟨Std.ExtTreeMap.mem_toList_iff_getElem?_eq_some.mp hd.1, hd.2, rfl⟩
  · rintro ⟨hpeak, hpos, hcurrent⟩
    refine ⟨(name, peak), ?_, ?_⟩
    · rw [List.mem_filter, decide_eq_true_eq]
      exact ⟨Std.ExtTreeMap.mem_toList_iff_getElem?_eq_some.mpr hpeak, hpos⟩
    · rw [Shown.mk.injEq]
      exact ⟨rfl, hcurrent.symm, rfl⟩

/-- A name is displayed if its peak is not zero. -/
theorem exists_shown {counts peaks : Counts} {name : String} {n : Nat}
    (hpeak : peaks[name]? = some n) (hpos : 0 < n) :
    ∃ e ∈ shown counts peaks, e.name = name :=
  ⟨⟨name, counts.get name, n⟩, mem_shown.mpr ⟨hpeak, hpos, rfl⟩, rfl⟩

/-- The display says that there is nothing exactly when there is nothing to list: the text of
    a name has a sign in it that those words do not have. -/
theorem countsText_iff (counts peaks : Counts) :
    countsText counts peaks = "no accelerator activity" ↔ shown counts peaks = [] := by
  rw [countsText_eq]
  cases hshown : shown counts peaks with
  | nil => exact ⟨fun _ => rfl, fun _ => rfl⟩
  | cons e rest =>
    simp only [List.isEmpty_cons, Bool.false_eq_true, if_false, reduceCtorEq, iff_false]
    intro htext
    have hsign : '=' ∈ e.text.toList := by
      simp only [Shown.text, String.toList_append, String.reduceToList, List.mem_append,
        List.mem_singleton, true_or, or_true]
    have hmem : '=' ∈ (Text.join " " ((e :: rest).map Shown.text)).toList := by
      rw [Text.join, String.toList_ofList]
      exact Text.mem_joinWith hsign
        (List.mem_map_of_mem (List.mem_map_of_mem (List.mem_cons_self ..)))
    rw [htext] at hmem
    exact absurd hmem (by decide)

end Display

/-- A number that is not zero is listed. -/
theorem Counts.exists_of_get_ne_zero {counts : Counts} {name : String}
    (h : counts.get name ≠ 0) : ∃ n, counts[name]? = some n ∧ 0 < n := by
  rw [get] at h
  cases hnumber : counts[name]? with
  | none =>
    rw [hnumber] at h
    exact absurd rfl h
  | some n =>
    rw [hnumber, Option.getD_some] at h
    exact ⟨n, rfl, Nat.pos_of_ne_zero h⟩

namespace Session

open Display

/-- What a session knows of the counts after it was told some snapshots. -/
structure Told (s : Session) (snapshots : List KernelSnapshot) : Prop where
  counts : s.counts = (snapshots.getLast?.map KernelSnapshot.counts).getD ∅
  peaks : ∀ name : String, s.peaks[name]?
    = (snapshots.filterMap fun snapshot => snapshot.counts[name]?).max?

/-- A session knows the snapshots that it was told, whatever else happened. -/
theorem told_run (framework : Framework) (runs : Nat) (events : List SessionEvent) :
    ((start framework runs).run events).Told (events.filterMap SessionEvent.kernel?) := by
  refine ⟨counts_run _ _, fun name => ?_⟩
  have hnone : (start framework runs).peaks[name]? = none := Std.ExtTreeMap.getElem?_empty
  rw [peaks_run, hnone]
  rfl

namespace Told

variable {s : Session} {snapshots : List KernelSnapshot}

/-- No number that a snapshot gave a name is above the peak of the name. -/
theorem le_peak (h : s.Told snapshots) {snapshot : KernelSnapshot} (hmem : snapshot ∈ snapshots)
    {name : String} {n : Nat} (hn : snapshot.counts[name]? = some n) :
    ∃ m, s.peaks[name]? = some m ∧ n ≤ m := by
  rw [h.peaks]
  exact le_max? (List.mem_filterMap.mpr ⟨snapshot, hmem, hn⟩)

/-- Every count has a peak at least as large, because the last snapshot raised it. -/
theorem count_le_peak (h : s.Told snapshots) {name : String} {n : Nat}
    (hn : s.counts[name]? = some n) : ∃ m, s.peaks[name]? = some m ∧ n ≤ m := by
  rw [h.counts] at hn
  cases hlast : snapshots.getLast? with
  | none =>
    rw [hlast, Option.map_none, Option.getD_none, Std.ExtTreeMap.getElem?_empty] at hn
    cases hn
  | some last =>
    rw [hlast, Option.map_some, Option.getD_some] at hn
    exact h.le_peak (List.mem_of_getLast? hlast) hn

/-- No count that is displayed is above its peak. -/
theorem current_le_peak (h : s.Told snapshots) {e : Shown} (he : e ∈ shown s.counts s.peaks) :
    e.current ≤ e.peak := by
  rcases mem_shown.mp he with ⟨hpeak, _, hcurrent⟩
  rw [hcurrent, Counts.get]
  cases hn : s.counts[e.name]? with
  | none => exact Nat.zero_le _
  | some n =>
    rcases h.count_le_peak hn with ⟨m, hm, hle⟩
    rw [hpeak, Option.some.injEq] at hm
    rw [Option.getD_some, hm]
    exact hle

/-- A name is displayed if a snapshot ever gave it a number that is not zero. -/
theorem shown_of_get_ne_zero (h : s.Told snapshots) {snapshot : KernelSnapshot}
    (hmem : snapshot ∈ snapshots) {name : String} (hget : snapshot.counts.get name ≠ 0) :
    ∃ e ∈ shown s.counts s.peaks, e.name = name := by
  rcases Counts.exists_of_get_ne_zero hget with ⟨n, hn, hpos⟩
  rcases h.le_peak hmem hn with ⟨m, hm, hle⟩
  exact exists_shown hm (Nat.lt_of_lt_of_le hpos hle)

/-- Nothing is displayed exactly when no snapshot ever had a number that is not zero. A name that
    was counted once stays displayed with its peak, even if its present number is zero. -/
theorem shown_eq_nil_iff (h : s.Told snapshots) :
    shown s.counts s.peaks = []
      ↔ ∀ snapshot ∈ snapshots, ∀ name, snapshot.counts.get name = 0 := by
  constructor
  · intro hnil snapshot hmem name
    by_contra hget
    rcases h.shown_of_get_ne_zero hmem hget with ⟨e, he, _⟩
    rw [hnil] at he
    exact absurd he List.not_mem_nil
  · intro hzero
    refine List.eq_nil_iff_forall_not_mem.mpr fun e he => ?_
    -- The peak is one of the numbers that the snapshots gave the name.
    rcases mem_shown.mp he with ⟨hpeak, hpos, _⟩
    rw [h.peaks] at hpeak
    rcases List.mem_filterMap.mp (List.max?_eq_some_iff.mp hpeak).1 with ⟨snapshot, hmem, hn⟩
    have hget := hzero snapshot hmem e.name
    rw [Counts.get, hn, Option.getD_some] at hget
    omega

end Told

/-- The peaks dominate the counts, whatever happened to a session. After any events:

    * the peak of a name is the largest number that any snapshot gave it, and only names that
      a snapshot listed have one;
    * no peak that there was at an earlier time has sunk or gone;
    * the counts are those of the last snapshot, and each has a peak at least as large;
    * displayed are names with their counts and peaks, all names whose count is not zero
      among them, and no count above its peak;
    * the display says that there is nothing exactly when no snapshot ever had a number that
      is not zero. -/
theorem peaks_dominate (framework : Framework) (runs : Nat)
    (earlier later : List SessionEvent) :
    let before := (start framework runs).run earlier
    let s := (start framework runs).run (earlier ++ later)
    let snapshots := (earlier ++ later).filterMap SessionEvent.kernel?
    (∀ name : String, s.peaks[name]?
      = (snapshots.filterMap fun snapshot => snapshot.counts[name]?).max?) ∧
    (∀ (name : String) (n : Nat), before.peaks[name]? = some n →
      ∃ m, s.peaks[name]? = some m ∧ n ≤ m) ∧
    s.counts = (snapshots.getLast?.map KernelSnapshot.counts).getD ∅ ∧
    (∀ (name : String) (n : Nat), s.counts[name]? = some n →
      ∃ m, s.peaks[name]? = some m ∧ n ≤ m) ∧
    countsText s.counts s.peaks
      = (if (shown s.counts s.peaks).isEmpty then "no accelerator activity"
        else Text.join " " ((shown s.counts s.peaks).map Shown.text)) ∧
    (∀ e ∈ shown s.counts s.peaks, e.current = s.counts.get e.name ∧
      s.peaks[e.name]? = some e.peak ∧ e.current ≤ e.peak) ∧
    (∀ name, s.counts.get name ≠ 0 → ∃ e ∈ shown s.counts s.peaks, e.name = name) ∧
    (countsText s.counts s.peaks = "no accelerator activity" ↔
      ∀ snapshot ∈ snapshots, ∀ name, snapshot.counts.get name = 0) := by
  intro before s snapshots
  -- All of this is about the snapshots that were told, in the order in which they came.
  have htold : s.Told snapshots := told_run framework runs (earlier ++ later)
  refine ⟨htold.peaks, ?_, htold.counts, fun name n => htold.count_le_peak, countsText_eq _ _,
    ?_, ?_, ?_⟩
  · -- The peak was a number of an earlier snapshot, and that is still among them.
    intro name n hn
    rw [(told_run framework runs earlier).peaks] at hn
    rcases List.mem_filterMap.mp (List.max?_eq_some_iff.mp hn).1 with ⟨snapshot, hmem, hnumber⟩
    refine htold.le_peak ?_ hnumber
    show snapshot ∈ (earlier ++ later).filterMap SessionEvent.kernel?
    rw [List.filterMap_append]
    exact List.mem_append_left _ hmem
  · intro e he
    rcases mem_shown.mp he with ⟨hpeak, _, hcurrent⟩
    exact ⟨hcurrent, hpeak, htold.current_le_peak he⟩
  -- A count that is not zero has a peak, and so it is shown.
  · intro name hget
    rcases Counts.exists_of_get_ne_zero hget with ⟨n, hn, hpos⟩
    rcases htold.count_le_peak hn with ⟨m, hm, hle⟩
    exact exists_shown hm (Nat.lt_of_lt_of_le hpos hle)
  · rw [countsText_iff]
    exact htold.shown_eq_nil_iff

/-- The case of a name that the last snapshot does not list, after results were cleared. -/
theorem peaks_dominate_cleared :
    let busy : KernelSnapshot := ⟨Table.ofList [("ICE", 0), ("kgsl", 4)], [], false⟩
    let calm : KernelSnapshot := ⟨Table.ofList [("ICE", 1)], [], false⟩
    let before := (start .tflite 1).run [.kernel busy]
    let s := (start .tflite 1).run ([.kernel busy] ++ [.track .snpe, .kernel calm, .clear, .poll])
    before.peaks["kgsl"]? = some 4 ∧ (∃ m, s.peaks["kgsl"]? = some m ∧ 4 ≤ m) ∧
      s.counts["ICE"]? = some 1 ∧ (∃ m, s.peaks["ICE"]? = some m ∧ 1 ≤ m) ∧
      s.counts.get "ICE" ≠ 0 ∧ ∃ e ∈ shown s.counts s.peaks, e.name = "ICE" := by
  intro busy calm before s
  rcases peaks_dominate .tflite 1 [.kernel busy] [.track .snpe, .kernel calm, .clear, .poll] with
    ⟨_, hkept, _, habove, _, _, hshown, _⟩
  have hpeak : before.peaks["kgsl"]? = some 4 := by decide +kernel
  have hcount : s.counts["ICE"]? = some 1 := by decide +kernel
  have hget : s.counts.get "ICE" ≠ 0 := by decide +kernel
  exact ⟨hpeak, hkept _ _ hpeak, hcount, habove _ _ hcount, hget, hshown _ hget⟩

end Session

end AccelMonitor
