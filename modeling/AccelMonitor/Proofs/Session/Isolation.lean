import AccelMonitor.Session.State

/-!
# What a Tracked Benchmark Inherits

How far the statistics after tracking a benchmark depend on what was before.

Tracking clears the results, but not the benchmarks that are still pending. So nothing
that has been summarized before, no snapshot and no framework, has any influence on the
statistics from then on. What does have one is the list of pending benchmarks: they go
on waiting in front of the new one, and a result that comes late is summarized, under
the framework of its own job, into the statistics of the benchmark that was tracked
after it. Only a session without pending benchmarks starts anew.

Two sessions are compared. They may have consumed different numbers of benchmarks, and
then their benchmarks have different numbers, so the events of one are those of the
other with the numbers shifted.

## Main definitions

* `SessionEvent.shift`: An event about benchmarks with larger numbers.
* `Session.Alike`: Two sessions that agree on all that can reach the statistics.

## Theorems

* `alike_track`: Tracking a benchmark makes sessions with the same pending ones alike.
* `Alike.step`, `Alike.run`: The same events keep them alike.
* `stats_after_track`: What the statistics depend on.
* `stats_after_track_idle`: Without pending benchmarks, everything starts anew.
* `stats_of_late_result`: What a late result does.
* `late_result_leaks`: It appears under another framework.
-/

namespace AccelMonitor

/-- The same event of a session that has consumed `k` more benchmarks. -/
def SessionEvent.shift (k : Nat) : SessionEvent → SessionEvent
  | .deliver number result => .deliver (number + k) result
  | .abandon number => .abandon (number + k)
  | event => event

namespace Session

/-- The sessions agree on all that can reach the statistics, and the first one has consumed `k`
    more benchmarks. Numbers of benchmarks count from the first one ever tracked, so those of
    the first session are larger by `k`. -/
structure Alike (k : Nat) (s t : Session) : Prop where
  framework : s.framework = t.framework
  runs : s.runs = t.runs
  stats : s.stats = t.stats
  pending : s.pending = t.pending
  completed : s.completed = t.completed + k

theorem alike_track {s t : Session} (hruns : s.runs = t.runs) (hpending : s.pending = t.pending)
    (hcompleted : t.completed = 0) (handle : Handle) :
    Alike s.completed (s.track handle) (t.track handle) where
  framework := rfl
  runs := hruns
  stats := rfl
  pending := congrArg (· ++ [handle]) hpending
  completed := by
    simp only [track, clear, hcompleted, Nat.zero_add]

namespace Alike

variable {k : Nat} {s t : Session}

theorem applyKernel (h : Alike k s t) (snapshot : KernelSnapshot) :
    Alike k (s.applyKernel snapshot) (t.applyKernel snapshot) := by
  rcases h with ⟨hframework, hruns, hstats, hpending, hcompleted⟩
  rw [Session.applyKernel, Session.applyKernel]
  split
  · refine ⟨hframework, hruns, ?_, hpending, hcompleted⟩
    simp only [hframework, hstats]
  · exact ⟨hframework, hruns, hstats, hpending, hcompleted⟩

theorem applyDevice (h : Alike k s t) (snapshot : DeviceSnapshot) :
    Alike k (s.applyDevice snapshot) (t.applyDevice snapshot) := by
  rcases h with ⟨hframework, hruns, hstats, hpending, hcompleted⟩
  rw [Session.applyDevice, Session.applyDevice]
  split
  · refine ⟨hframework, hruns, ?_, hpending, hcompleted⟩
    simp only [hframework, hstats]
  · exact ⟨hframework, hruns, hstats, hpending, hcompleted⟩

theorem track (h : Alike k s t) (handle : Handle) :
    Alike k (s.track handle) (t.track handle) :=
  ⟨rfl, h.runs, rfl, congrArg (· ++ [handle]) h.pending, h.completed⟩

theorem updateHandle (h : Alike k s t) (number : Nat) (f : Handle → Handle) :
    Alike k (s.updateHandle (number + k) f) (t.updateHandle number f) := by
  rcases h with ⟨hframework, hruns, hstats, hpending, hcompleted⟩
  rw [Session.updateHandle, Session.updateHandle]
  by_cases hnumber : t.completed ≤ number
  · -- The place among the pending benchmarks is the same.
    have hplace : number + k - s.completed = number - t.completed := by
      omega
    rw [if_pos hnumber, if_pos (by omega), hplace]
    exact ⟨hframework, hruns, hstats, congrArg (List.modify · _ f) hpending, hcompleted⟩
  · rw [if_neg hnumber, if_neg (by omega)]
    exact ⟨hframework, hruns, hstats, hpending, hcompleted⟩

theorem settle (h : Alike k s t) (result : JobResult) :
    Alike k (s.settle result) (t.settle result) := by
  rcases h with ⟨hframework, hruns, hstats, hpending, hcompleted⟩
  refine ⟨hframework, hruns, ?_, hpending, ?_⟩
  · simp only [Session.settle, hruns, hstats]
  · simp only [Session.settle, hcompleted]
    omega

theorem pollFrom (h : Alike k s t) (handles : List Handle) :
    Alike k (Session.pollFrom handles s).2 (Session.pollFrom handles t).2 := by
  induction handles generalizing s t with
  | nil => exact ⟨h.framework, h.runs, h.stats, rfl, h.completed⟩
  | cons handle rest ih =>
    rw [Session.pollFrom, Session.pollFrom]
    split
    · rename_i result _ _
      exact ih (h.settle result)
    · exact ⟨h.framework, h.runs, h.stats, rfl, h.completed⟩

/-- An event keeps two sessions alike. If it names a benchmark, the first session is told the
    number shifted by what it has consumed more. -/
theorem step (h : Alike k s t) (event : SessionEvent) :
    Alike k (s.step (event.shift k)) (t.step event) := by
  cases event with
  | kernel snapshot => exact h.applyKernel snapshot
  | device snapshot => exact h.applyDevice snapshot
  | loads loads => exact ⟨h.framework, h.runs, h.stats, h.pending, h.completed⟩
  | track framework => exact h.track (.fresh framework)
  | deliver number result => exact h.updateHandle number (·.deliver result)
  | abandon number => exact h.updateHandle number Handle.abandon
  | poll =>
    have hpolled := h.pollFrom s.pending
    rw [show Session.pollFrom s.pending t = t.poll by rw [h.pending]; rfl] at hpolled
    exact hpolled
  | clear => exact ⟨h.framework, h.runs, rfl, h.pending, h.completed⟩

theorem run (h : Alike k s t) (events : List SessionEvent) :
    Alike k (s.run (events.map (SessionEvent.shift k))) (t.run events) := by
  induction events generalizing s t with
  | nil => exact h
  | cons event events ih => exact ih (h.step event)

end Alike

/-- Where nothing is pending, a tracked benchmark finds a session like a new one. -/
theorem stats_after_track_idle {s : Session} (hruns : 0 < s.runs) (hpending : s.pending = [])
    (handle : Handle) (events : List SessionEvent) :
    ((s.track handle).run (events.map (SessionEvent.shift s.completed))).stats
      = (((Session.start handle.framework s.runs).track handle).run events).stats := by
  have hsame : s.runs = (Session.start handle.framework s.runs).runs := by
    simp only [Session.start]
    omega
  exact ((alike_track hsame hpending rfl handle).run events).stats

theorem pollFrom_of_awaited {handles : List Handle}
    (h : ∀ next ∈ handles.head?, next.take?.1 = none) (s : Session) :
    (pollFrom handles s).2.stats = s.stats := by
  cases handles with
  | nil => rfl
  | cons next rest =>
    have hnone := h next rfl
    rw [pollFrom]
    split
    · rename_i result _ hsome
      rw [hsome] at hnone
      cases hnone
    · rfl

/-- The oldest pending benchmark ends after another one was tracked: its result is
    summarized into the new statistics, whatever its framework is. -/
theorem stats_of_late_result {s : Session} {old : Framework} {rest : List Handle}
    (hpending : s.pending = .fresh old :: rest) (handle : Handle)
    (hawaited : ∀ next ∈ (rest ++ [handle]).head?, next.take?.1 = none) (result : JobResult) :
    ((s.track handle).run [.deliver s.completed result, .poll]).stats
      = summarized s.runs .zero result := by
  have hdelivered : ((s.track handle).step (.deliver s.completed result)).pending
      = (Handle.fresh old).deliver result :: (rest ++ [handle]) := by
    simp only [step, deliver, updateHandle, track, clear, hpending, Nat.le_refl, if_true,
      Nat.sub_self, List.cons_append, List.modify_zero_cons]
  have hsame : ((s.track handle).step (.deliver s.completed result)).stats = .zero ∧
      ((s.track handle).step (.deliver s.completed result)).runs = s.runs := by
    simp only [step, deliver, updateHandle, track, clear, Nat.le_refl, if_true, and_self]
  simp only [run, List.foldl_cons, List.foldl_nil]
  generalize (s.track handle).step (.deliver s.completed result) = told at hdelivered hsame
  rw [step, poll, hdelivered, pollFrom]
  simp only [Handle.fresh, Handle.deliver, Handle.take?, Handle.look]
  rw [pollFrom_of_awaited hawaited, settle, hsame.1, hsame.2]

/-- The statistics after tracking a benchmark depend on the number of runs, on the
    benchmarks that were pending, and on what happened since. The events speak of the
    oldest of the pending benchmarks as number zero.

    The pending benchmarks are all that comes from before. Without any, the session is like
    one that was just started for the framework of the new benchmark. With one, a result
    that it has later makes the statistics what its own report says, and this is how a
    framework's numbers come to stand under another one. -/
theorem stats_after_track {s t : Session} (hruns : s.runs = t.runs)
    (hpending : s.pending = t.pending) (handle : Handle) (events : List SessionEvent) :
    ((s.track handle).run (events.map (SessionEvent.shift s.completed))).stats
      = ((t.track handle).run (events.map (SessionEvent.shift t.completed))).stats ∧
    (0 < s.runs → s.pending = [] →
      ((s.track handle).run (events.map (SessionEvent.shift s.completed))).stats
        = (((Session.start handle.framework s.runs).track handle).run events).stats) ∧
    ∀ old rest result, s.pending = .fresh old :: rest →
      (∀ next ∈ (rest ++ [handle]).head?, next.take?.1 = none) →
      ((s.track handle).run [.deliver s.completed result, .poll]).stats
        = summarized s.runs .zero result := by
  refine ⟨?_, fun hpos hnone => stats_after_track_idle hpos hnone handle events,
    fun old rest result hold hawaited => stats_of_late_result hold handle hawaited result⟩
  -- Both are compared with a session that has consumed nothing.
  have hs := alike_track (t := { t with completed := 0 }) hruns hpending rfl handle
  have ht := alike_track (s := t) (t := { t with completed := 0 }) rfl rfl rfl handle
  exact (hs.run events).stats.trans (ht.run events).stats.symm

/-- Two sessions with a pending benchmark, one of which has consumed another one before. -/
theorem stats_after_track_history :
    let s := (Session.start .tflite 2).run
      [.track .tflite, .deliver 0 (.ok ⟨.tflite, ["PRE-PROCESSING done 9"]⟩), .poll, .track .snpe]
    let t := (Session.start .mlperf 2).run [.track .snpe]
    let events : List SessionEvent :=
      [.deliver 1 (.ok ⟨.tflite, ["PRE-PROCESSING done 7"]⟩), .abandon 0, .poll]
    s.runs = t.runs ∧ s.pending = t.pending ∧ s.completed = 1 ∧ t.completed = 0 ∧
      ((s.track (.fresh .tflite)).run (events.map (SessionEvent.shift s.completed))).stats
        = ((t.track (.fresh .tflite)).run (events.map (SessionEvent.shift t.completed))).stats := by
  intro s t events
  exact ⟨rfl, rfl, rfl, rfl,
    (stats_after_track (s := s) (t := t) rfl rfl (.fresh .tflite) events).1⟩

/-- The report of a benchmark that is still running when another is tracked appears under
    the framework of the other, where its microseconds are taken for nanoseconds. -/
theorem late_result_leaks :
    let report : JobResult := .ok ⟨.snpe, ["Dnn Runtime Load/Deserialize/Create Statistics:",
      "RPC Execute Time: 700 us", "Accelerator Time: 400 us"]⟩
    let late := (Session.start .snpe 1).run
      [.track .snpe, .track .tflite, .deliver 0 report, .poll]
    let alone := (Session.start .snpe 1).run [.track .tflite, .poll]
    late.framework = .tflite ∧ late.stats.offload = 300 ∧
      alone.framework = .tflite ∧ alone.stats.offload = 0 := by
  decide +kernel

end Session

end AccelMonitor
