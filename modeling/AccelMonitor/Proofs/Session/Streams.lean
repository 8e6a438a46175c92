import AccelMonitor.Proofs.Benchmark.ToolReport
import AccelMonitor.Proofs.Offload.Error
import AccelMonitor.Proofs.Session.Consumption
import AccelMonitor.Proofs.Session.Schedule
import Mathlib.Data.List.Perm.Basic

/-!
# The Order of the Streams

How far a session depends on the order in which its streams arrive.

A session is told three streams of snapshots and the result of a benchmark, and they come
from workers that do not wait for each other. Each stream keeps its own order. Most of the
session belongs to one stream alone, and so does not see the others: the counts, the peaks
and the breakdown to the kernel log, the lines to the device log, the loads to the
processor. The offload total belongs to two streams, but adding to it can be done in any
order, even where it stops at its limit.

The result of a benchmark meets the streams in the statistics. A report of the tool
replaces times that no stream touches, and it reads the offload total to find the
inference time. So that time, and nothing else, tells when the benchmark was consumed: it
is smaller if more offload time had been counted by then. A diagnostic report replaces all
of the statistics, and under its framework no stream touches them.

## Main definitions

* `SessionEvent.Ordinary`: Events of the streams and of one benchmark.
* `Session.Merges`: Events that merge given streams with the end of a benchmark.
* `SessionEvent.increments`: What an event adds to the offload total.
* `Session.offloadAtPoll`: The offload total when the benchmark was consumed.
* `Session.Agree`: Two sessions that differ in the inference time at most.

## Theorems

* `run_part`: What belongs to one stream follows that stream.
* `kernelOffload_eq`, `deviceOffload_eq`: Snapshots add to the total, whatever it is.
* `Single.step`: What an event does to the statistics and to the line.
* `Single.run_consumed`, `Single.run_untold`, `Single.run_told`: What a run makes of the
  statistics.
* `increments_perm`: The orders of two merges are permutations of each other.
* `order_free`: Two merges of the same streams lead to sessions that agree.
-/

namespace AccelMonitor

namespace SessionEvent

/-- The loads that the event takes over. -/
def loads? : SessionEvent → Option Loads
  | .loads l => some l
  | _ => none

/-- The event belongs to one of the streams, is a poll, or is the end of the benchmark of a
    number with a result. A worker that goes away leaves a failure. -/
inductive Ordinary (number : Nat) (result : JobResult) : SessionEvent → Prop where
  | kernel (snapshot : KernelSnapshot) : Ordinary number result (.kernel snapshot)
  | device (snapshot : DeviceSnapshot) : Ordinary number result (.device snapshot)
  | loads (l : Loads) : Ordinary number result (.loads l)
  | poll : Ordinary number result .poll
  | deliver : Ordinary number result (.deliver number result)
  | abandon (hresult : result = .error .poolClosed) : Ordinary number result (.abandon number)

end SessionEvent

namespace Offload

/-- Time can be added to the total in any order. -/
instance : RightCommutative addTotals where
  right_comm a b c := by
    rw [addTotals_addTotals, addTotals_addTotals, Nat.add_comm]

/-- What some lines add to the total. -/
def increments (source : OffloadSource) (lines : List String) : List Nat :=
  match (update source lines .zero).1 with
  | .applied n => [n]
  | _ => []

end Offload

/-- Statistics with some times added to the offload total. -/
def Statistics.addAll (stats : Statistics) (ns : List Nat) : Statistics :=
  { stats with offload := ns.foldl Offload.addTotals stats.offload }

theorem Statistics.addAll_nil (stats : Statistics) : stats.addAll [] = stats := rfl

theorem Statistics.addAll_append (stats : Statistics) (ms ns : List Nat) :
    stats.addAll (ms ++ ns) = (stats.addAll ms).addAll ns := by
  simp only [addAll, List.foldl_append]

namespace Offload

/-- What lines add does not depend on what is there. -/
theorem update_eq (source : OffloadSource) (lines : List String) (stats : Statistics) :
    (update source lines stats).2 = stats.addAll (increments source lines) := by
  simp only [increments, update, applySamples]
  split
  · rfl
  · split
    · rfl
    · rfl

end Offload

namespace Handle

/-- A handle that can only give one result stays so when that result is sent. -/
theorem onlyResult_deliver {h : Handle} {result : JobResult}
    (honly : ∀ r, h.take?.1 = some r → r = result) :
    ∀ r, (h.deliver result).take?.1 = some r → r = result := by
  intro r hr
  by_cases htaken : h.stage = .taken
  · rw [deliver, htaken] at hr
    exact honly r hr
  · rw [take?_deliver htaken] at hr
    rcases Option.or_eq_some_iff.mp hr with hold | ⟨_, hnew⟩
    · exact honly r hold
    · exact (Option.some.inj hnew).symm

end Handle

namespace Session

/-- What a snapshot of the kernel log adds to the offload total. -/
def kernelIncrements (snapshot : KernelSnapshot) : List Nat :=
  if snapshot.fresh then
    Offload.increments .kernel (snapshot.delta.get .time)
      ++ Offload.increments .gpu (snapshot.delta.get .ioctl)
  else []

/-- What a snapshot of the device log adds to the offload total. -/
def deviceIncrements (snapshot : DeviceSnapshot) : List Nat :=
  if snapshot.fresh then
    snapshot.lines.toList.flatMap fun e => Offload.increments .driver e.2
  else []

theorem kernelOffload_eq (stats : Statistics) (delta : Buckets) :
    kernelOffload stats delta = stats.addAll (Offload.increments .kernel (delta.get .time)
      ++ Offload.increments .gpu (delta.get .ioctl)) := by
  rw [kernelOffload, Offload.update_eq, Offload.update_eq, Statistics.addAll_append]

theorem deviceOffload_eq (stats : Statistics) (lines : LogLines) :
    deviceOffload stats lines
      = stats.addAll (lines.toList.flatMap fun e => Offload.increments .driver e.2) := by
  rw [deviceOffload]
  induction lines.toList generalizing stats with
  | nil => rfl
  | cons e es ih =>
    rw [List.foldl_cons, ih, Offload.update_eq, List.flatMap_cons, Statistics.addAll_append]

end Session

/-- What an event adds to the offload total of a session of a framework. -/
def SessionEvent.increments (framework : Framework) (event : SessionEvent) : List Nat :=
  if framework.drivesTool then
    (event.kernel?.toList.flatMap Session.kernelIncrements)
      ++ event.device?.toList.flatMap Session.deviceIncrements
  else []

namespace Session

/-- The events merge the streams with polls and with the end of the benchmark of a number. -/
structure Merges (number : Nat) (result : JobResult) (kernels : List KernelSnapshot)
    (devices : List DeviceSnapshot) (loads : List Loads) (events : List SessionEvent) :
    Prop where
  kernels : events.filterMap SessionEvent.kernel? = kernels
  devices : events.filterMap SessionEvent.device? = devices
  loads : events.filterMap SessionEvent.loads? = loads
  ordinary : ∀ event ∈ events, event.Ordinary number result

/-- What changes only with the values of one stream follows that stream. So two runs with the same
    values of it, in the same order, end with the same part, whatever else is in them. -/
theorem run_part {α β : Type} (part : Session → α) (value? : SessionEvent → Option β)
    (change : α → β → α) {events : List SessionEvent}
    (h : ∀ event ∈ events, ∀ s : Session,
      part (s.step event) = (value? event).elim (part s) (change (part s))) (s : Session) :
    part (s.run events) = (events.filterMap value?).foldl change (part s) := by
  induction events generalizing s with
  | nil => rfl
  | cons event events ih =>
    have hrest := ih (fun e he => h e (List.mem_cons_of_mem event he)) (s.step event)
    rw [h event (List.mem_cons_self ..) s] at hrest
    refine hrest.trans ?_
    -- An event of another stream leaves the part alone, and is left out on the other side.
    cases hvalue : value? event with
    | none => rw [List.filterMap_cons_none hvalue, Option.elim_none]
    | some b => rw [List.filterMap_cons_some hvalue, Option.elim_some, List.foldl_cons]

/-- The log of recent lines after a snapshot. -/
def keepLines (log : List String) (snapshot : DeviceSnapshot) : List String :=
  if snapshot.fresh then lastOnes logLimit (log ++ allLines snapshot.lines) else log

/-- What a kernel snapshot changes, as one record. Counts and peaks are always taken over; the
    delta goes into the breakdown and the offload time only if it is fresh. -/
theorem applyKernel_eq (s : Session) (snapshot : KernelSnapshot) :
    s.applyKernel snapshot = { s with
      counts := snapshot.counts
      peaks := raisePeaks s.peaks snapshot.counts
      breakdown := absorb s.breakdown snapshot
      stats := s.stats.addAll ((SessionEvent.kernel snapshot).increments s.framework) } := by
  rcases snapshot with ⟨counts, delta, fresh⟩
  simp only [applyKernel, absorb, SessionEvent.increments, SessionEvent.kernel?,
    SessionEvent.device?, kernelIncrements, kernelOffload_eq, Option.toList, List.flatMap_cons,
    List.flatMap_nil, List.append_nil]
  cases fresh with
  | true =>
    cases htool : s.framework.drivesTool with
    | true => rfl
    | false => rfl
  | false =>
    cases htool : s.framework.drivesTool with
    | true => rfl
    | false => rfl

/-- What a device snapshot changes, as one record: the log and the offload time, and both only if
    it is fresh. -/
theorem applyDevice_eq (s : Session) (snapshot : DeviceSnapshot) :
    s.applyDevice snapshot = { s with
      log := keepLines s.log snapshot
      stats := s.stats.addAll ((SessionEvent.device snapshot).increments s.framework) } := by
  rcases snapshot with ⟨lines, fresh⟩
  simp only [applyDevice, keepLines, SessionEvent.increments, SessionEvent.kernel?,
    SessionEvent.device?, deviceIncrements, deviceOffload_eq, Option.toList, List.flatMap_cons,
    List.flatMap_nil, List.append_nil, List.nil_append]
  cases fresh with
  | true =>
    cases htool : s.framework.drivesTool with
    | true => simp only [if_true]
    | false => simp only [if_true, Bool.false_eq_true, if_false, Statistics.addAll_nil]
  | false =>
    cases htool : s.framework.drivesTool with
    | true => rfl
    | false => rfl

/-- The worker of a benchmark changes nothing but its handle. -/
theorem updateHandle_eq (s : Session) (number : Nat) (f : Handle → Handle) :
    ∃ pending, s.updateHandle number f = { s with pending } := by
  rw [updateHandle]
  split
  · exact ⟨_, rfl⟩
  · exact ⟨_, rfl⟩

/-- How what does not depend on benchmarks changes. Each part listens to one kind of event and
    is left alone by all others, so that only the order of the events of its own kind can matter
    to it. -/
structure Follows (s : Session) (event : SessionEvent) (t : Session) : Prop where
  framework : t.framework = s.framework
  runs : t.runs = s.runs
  breakdown : t.breakdown = event.kernel?.elim s.breakdown (absorb s.breakdown)
  counts : t.counts = event.kernel?.elim s.counts fun snapshot => snapshot.counts
  peaks : t.peaks = event.kernel?.elim s.peaks fun snapshot => raisePeaks s.peaks snapshot.counts
  loads : t.loads = event.loads?.elim s.loads id
  log : t.log = event.device?.elim s.log (keepLines s.log)

variable {number : Nat} {result : JobResult} {event : SessionEvent} {events : List SessionEvent}

/-- What an event changes apart from the benchmarks, for the events of one session. -/
theorem follows_step (h : event.Ordinary number result) (s : Session) :
    s.Follows event (s.step event) := by
  cases h with
  | kernel snapshot =>
    rw [step, applyKernel_eq]
    exact ⟨rfl, rfl, rfl, rfl, rfl, rfl, rfl⟩
  | device snapshot =>
    rw [step, applyDevice_eq]
    exact ⟨rfl, rfl, rfl, rfl, rfl, rfl, rfl⟩
  | loads l => exact ⟨rfl, rfl, rfl, rfl, rfl, rfl, rfl⟩
  | poll =>
    rw [step, poll, pollFrom_eq]
    exact ⟨rfl, rfl, rfl, rfl, rfl, rfl, rfl⟩
  | deliver =>
    rcases updateHandle_eq s number (·.deliver result) with ⟨pending, heq⟩
    rw [step, deliver, heq]
    exact ⟨rfl, rfl, rfl, rfl, rfl, rfl, rfl⟩
  | abandon hresult =>
    rcases updateHandle_eq s number Handle.abandon with ⟨pending, heq⟩
    rw [step, abandon, heq]
    exact ⟨rfl, rfl, rfl, rfl, rfl, rfl, rfl⟩

/-- There is at most one benchmark, of a number, and it can only end with one result. -/
structure Single (number : Nat) (result : JobResult) (s : Session) : Prop where
  line : s.pending = [] ∨ ∃ handle, s.pending = [handle] ∧ s.completed = number ∧
    ∀ r, handle.take?.1 = some r → r = result

/-- Nothing is consumed, and offload time is added. -/
structure Passes (s : Session) (ns : List Nat) (t : Session) : Prop where
  pending : t.pending.length = s.pending.length
  completed : t.completed = s.completed
  stats : t.stats = s.stats.addAll ns

/-- The pending benchmark is consumed. -/
structure Consumes (s : Session) (result : JobResult) (t : Session) : Prop where
  before : s.pending ≠ []
  pending : t.pending = []
  completed : t.completed = s.completed + 1
  stats : t.stats = summarized s.runs s.stats result

namespace Single

variable {s : Session}

/-- A word of its worker does not make a benchmark end with another result. -/
theorem updateHandle (h : s.Single number result) {f : Handle → Handle}
    (hf : ∀ handle : Handle, (∀ r, handle.take?.1 = some r → r = result) →
      ∀ r, (f handle).take?.1 = some r → r = result) :
    (s.updateHandle number f).Single number result ∧ s.Passes [] (s.updateHandle number f) := by
  rw [Session.updateHandle]
  rcases h.line with hnil | ⟨handle, hone, hnumber, hresult⟩
  · split
    · refine ⟨⟨Or.inl ?_⟩, ⟨List.length_modify .., rfl, rfl⟩⟩
      rw [hnil]
      cases number - s.completed <;> rfl
    · exact ⟨h, ⟨rfl, rfl, rfl⟩⟩
  · -- The one handle stands at the place of its number.
    have hplace : number - s.completed = 0 := by
      omega
    rw [if_pos (Nat.le_of_eq hnumber), hone, hplace, List.modify_zero_cons]
    refine ⟨⟨Or.inr ⟨f handle, rfl, hnumber, hf handle hresult⟩⟩, ⟨?_, rfl, rfl⟩⟩
    rw [hone]
    rfl

/-- Polling passes the benchmark by, or consumes its result. There is one handle at most, and only
    one result that it can give. -/
theorem poll (h : s.Single number result) :
    s.poll.2.Single number result ∧ (s.Passes [] s.poll.2 ∨ s.Consumes result s.poll.2) := by
  rw [Session.poll, pollFrom_eq]
  -- The line is empty, or it holds one handle, which can only give the one result.
  rcases h.line with hnil | ⟨handle, hone, hnumber, hresult⟩
  · have hfinished : finished s.pending = [] := by
      rw [hnil]
      rfl
    rw [hfinished]
    exact ⟨h, Or.inl ⟨rfl, rfl, rfl⟩⟩
  · cases hready : handle.take?.1 with
    | none =>
      have hfinished : finished s.pending = [] := by
        rw [finished, hone, List.map_cons, hready, leading_cons_none]
      rw [hfinished]
      exact ⟨h, Or.inl ⟨rfl, rfl, rfl⟩⟩
    | some r =>
      have hfinished : finished s.pending = [result] := by
        rw [finished, hone, List.map_cons, hready, leading_cons_some, hresult r hready]
        rfl
      rw [hfinished]
      refine ⟨⟨Or.inl ?_⟩, Or.inr ⟨?_, ?_, rfl, rfl⟩⟩
      · rw [hone]
        rfl
      · rw [hone]
        exact List.cons_ne_nil _ _
      · rw [hone]
        rfl

/-- Every event either adds its offload time and consumes nothing, or it consumes the benchmark
    and adds no offload time of its own. No event does both, which is why the times of a run
    fall into those before the poll and those after it. -/
theorem step (h : s.Single number result) (he : event.Ordinary number result) :
    (s.step event).Single number result ∧
      (s.Passes (event.increments s.framework) (s.step event) ∨
        (event.increments s.framework = [] ∧ s.Consumes result (s.step event))) := by
  have hnone : event.kernel? = none → event.device? = none → event.increments s.framework = [] := by
    intro hkernel hdevice
    rw [SessionEvent.increments, hkernel, hdevice]
    split
    · rfl
    · rfl
  -- Only the two snapshots bring offload times, and only a poll can consume.
  cases he with
  | kernel snapshot =>
    rw [Session.step, applyKernel_eq]
    exact ⟨⟨h.line⟩, Or.inl ⟨rfl, rfl, rfl⟩⟩
  | device snapshot =>
    rw [Session.step, applyDevice_eq]
    exact ⟨⟨h.line⟩, Or.inl ⟨rfl, rfl, rfl⟩⟩
  | loads l =>
    rw [hnone rfl rfl]
    exact ⟨⟨h.line⟩, Or.inl ⟨rfl, rfl, rfl⟩⟩
  | poll =>
    rw [hnone rfl rfl]
    exact ⟨h.poll.1, h.poll.2.imp_right fun hconsumes => ⟨rfl, hconsumes⟩⟩
  | deliver =>
    rw [hnone rfl rfl]
    have hboth := h.updateHandle fun _ => Handle.onlyResult_deliver
    exact ⟨hboth.1, Or.inl hboth.2⟩
  | abandon hpool =>
    rw [hnone rfl rfl]
    -- A worker that is gone leaves the handle as a failure of the pool would.
    have hboth := h.updateHandle (f := Handle.abandon) fun handle hresult => by
      rw [Handle.take?_abandon_eq, ← hpool]
      exact Handle.onlyResult_deliver hresult
    exact ⟨hboth.1, Or.inl hboth.2⟩

/-- The framework stays, and so does what an event adds. -/
theorem framework_run (hordinary : ∀ e ∈ events, e.Ordinary number result) (s : Session) :
    (s.run events).framework = s.framework ∧ (s.run events).runs = s.runs := by
  induction events generalizing s with
  | nil => exact ⟨rfl, rfl⟩
  | cons event events ih =>
    have hfollows := follows_step (hordinary event (List.mem_cons_self ..)) s
    have hrest := ih (fun e he => hordinary e (List.mem_cons_of_mem event he)) (s.step event)
    exact ⟨hrest.1.trans hfollows.framework, hrest.2.trans hfollows.runs⟩

/-- Where nothing is pending, a run only adds offload time, in whatever order its events come. -/
theorem run_idle (h : s.Single number result) (hnil : s.pending = [])
    (hordinary : ∀ e ∈ events, e.Ordinary number result) :
    (s.run events).pending = [] ∧ (s.run events).completed = s.completed ∧
      (s.run events).stats
        = s.stats.addAll (events.flatMap (SessionEvent.increments s.framework)) := by
  induction events generalizing s with
  | nil => exact ⟨hnil, rfl, rfl⟩
  | cons event events ih =>
    have hevent := hordinary event (List.mem_cons_self ..)
    have hfollows := follows_step hevent s
    rcases h.step hevent with ⟨hsingle, hpasses | ⟨_, hconsumes⟩⟩
    · -- A line of length zero stays one, so nothing is consumed later either.
      have hnext : (s.step event).pending = [] :=
        List.length_eq_zero_iff.mp (hpasses.pending.trans (List.length_eq_zero_iff.mpr hnil))
      have hrest := ih hsingle hnext fun e he => hordinary e (List.mem_cons_of_mem event he)
      rw [hfollows.framework, hpasses.completed, hpasses.stats] at hrest
      rw [List.flatMap_cons, Statistics.addAll_append]
      exact hrest
    · exact absurd hnil hconsumes.before

end Single

/-- The offload total before the event that consumed the last pending benchmark. -/
def offloadAtPoll (s : Session) : List SessionEvent → Nat
  | [] => s.stats.offload
  | event :: events =>
    if (s.step event).pending.isEmpty then s.stats.offload
    else (s.step event).offloadAtPoll events

/-- What a run makes of the statistics in which the pending benchmark is consumed: some offload
    time is added before the report is folded in, and the rest after. Where the cut lies depends
    on the order of the events, and it is all that does: the times themselves are those of the
    whole run, cut in two. -/
theorem Single.run_consumed {s : Session} (h : s.Single number result) (hpending : s.pending ≠ [])
    (hordinary : ∀ e ∈ events, e.Ordinary number result) (hend : (s.run events).pending = []) :
    ∃ before after, events.flatMap (SessionEvent.increments s.framework) = before ++ after ∧
      s.offloadAtPoll events = (s.stats.addAll before).offload ∧
      (s.run events).completed = s.completed + 1 ∧
      (s.run events).stats = (summarized s.runs (s.stats.addAll before) result).addAll after := by
  induction events generalizing s with
  | nil => exact absurd hend hpending
  | cons event events ih =>
    have hevent := hordinary event (List.mem_cons_self ..)
    have hfollows := follows_step hevent s
    have hordinary' := fun e he => hordinary e (List.mem_cons_of_mem event he)
    -- Either the benchmark is still pending after the first event, and the induction goes on
    -- with the times of that event in front, or that event was the poll.
    rcases h.step hevent with ⟨hsingle, hpasses | ⟨hnone, hconsumes⟩⟩
    · have hnext : (s.step event).pending ≠ [] := by
        rw [← List.length_pos_iff, hpasses.pending, List.length_pos_iff]
        exact hpending
      rcases ih hsingle hnext hordinary' hend with ⟨before, after, hsplit, hoffload, hrest⟩
      rw [hfollows.framework] at hsplit
      rw [hpasses.stats, ← Statistics.addAll_append] at hoffload hrest
      rw [hpasses.completed, hfollows.runs] at hrest
      refine ⟨event.increments s.framework ++ before, after, ?_, ?_, hrest⟩
      · rw [List.flatMap_cons, hsplit, List.append_assoc]
      · rw [offloadAtPoll, if_neg (by rw [List.isEmpty_iff]; exact hnext)]
        exact hoffload
    · -- From here on nothing is pending.
      have hrest := hsingle.run_idle hconsumes.pending hordinary'
      rw [hfollows.framework, hconsumes.completed, hconsumes.stats] at hrest
      refine ⟨[], events.flatMap (SessionEvent.increments s.framework), ?_, ?_, hrest.2⟩
      · rw [List.flatMap_cons, hnone]
      · rw [offloadAtPoll, if_pos (List.isEmpty_iff.mpr hconsumes.pending)]
        rfl

/-- Under a framework that does not drive the tool nothing is added. -/
theorem increments_eq_nil {framework : Framework} (h : framework.drivesTool = false)
    (events : List SessionEvent) : events.flatMap (SessionEvent.increments framework) = [] :=
  List.flatMap_eq_nil_iff.mpr fun event _ => by
    rw [SessionEvent.increments, if_neg (by rw [h]; exact Bool.false_ne_true)]

/-- However the streams were merged, the same times are added. The list of the times does change
    with the order, as the two logs take turns in it, so the statement is up to permutation,
    which is enough for a sum. -/
theorem increments_perm {framework : Framework} {kernels : List KernelSnapshot}
    {devices : List DeviceSnapshot} {loads : List Loads}
    (h : Merges number result kernels devices loads events) :
    (events.flatMap (SessionEvent.increments framework)).Perm
      (if framework.drivesTool then
        kernels.flatMap kernelIncrements ++ devices.flatMap deviceIncrements
      else []) := by
  rw [← h.kernels, ← h.devices]
  clear h
  -- Unless the session drives the tool, no event brings any time.
  cases htool : framework.drivesTool with
  | false =>
    rw [increments_eq_nil htool]
    exact List.Perm.refl _
  | true =>
    have hall : SessionEvent.increments framework = fun event =>
        event.kernel?.toList.flatMap kernelIncrements
          ++ event.device?.toList.flatMap deviceIncrements :=
      funext fun event => if_pos htool
    rw [hall, if_pos rfl]
    induction events with
    | nil => exact List.Perm.refl _
    | cons event events ih =>
      rw [List.flatMap_cons]
      refine (List.Perm.append_left _ ih).trans ?_
      cases event with
      -- A kernel snapshot adds at the front of both sides.
      | kernel snapshot =>
        simp only [SessionEvent.kernel?, SessionEvent.device?, List.filterMap_cons,
          Option.toList, List.flatMap_cons, List.flatMap_nil, List.append_nil, List.append_assoc]
        exact List.Perm.refl _
      -- A device snapshot moves past the times of all kernel snapshots.
      | device snapshot =>
        simp only [SessionEvent.kernel?, SessionEvent.device?, List.filterMap_cons,
          Option.toList, List.flatMap_cons, List.flatMap_nil, List.append_nil, List.nil_append]
        exact List.perm_append_comm_assoc _ _ _
      | _ => exact List.Perm.refl _

/-- What the report of a result gives. -/
def givenBy {α : Type} (given? : String → Option α) : JobResult → Option α
  | .ok output => Report.latest? given? output.lines
  | .error _ => none

/-- A result of a framework that drives the tool replaces what its report gives. -/
theorem summarized_eq {framework : Framework} (htool : framework.drivesTool = true)
    (hown : ∀ output, result = .ok output → output.framework = framework) (runs : Nat)
    (stats : Statistics) :
    summarized runs stats result
      = Report.replaced runs (givenBy Report.preprocessingOf? result)
          (givenBy Report.timingsOf? result) stats := by
  cases result with
  | error e => rfl
  | ok output =>
    rcases output with ⟨own, lines⟩
    cases hown ⟨own, lines⟩ rfl
    cases own with
    | tflite => exact Report.foldl_absorbLine runs lines stats
    | tfliteApp => exact Report.foldl_absorbLine runs lines stats
    | snpe => cases htool
    | mlperf => cases htool

/-- One benchmark that can only end with one result, if there is any. -/
theorem single_of_results {s : Session} (hone : s.pending.length ≤ 1)
    (hresult : ∀ handle ∈ s.pending, ∀ r, handle.take?.1 = some r → r = result) :
    s.Single s.completed result := by
  cases hline : s.pending with
  | nil => exact ⟨Or.inl hline⟩
  | cons handle rest =>
    rw [hline] at hone hresult
    rw [List.length_cons] at hone
    have hrest : rest = [] := List.length_eq_zero_iff.mp (by omega)
    exact ⟨Or.inr ⟨handle, hrest ▸ hline, rfl, hresult handle (List.mem_cons_self ..)⟩⟩

namespace Single

variable {s : Session}

/-- Where no offload time is counted, the result alone changes the statistics. -/
theorem run_untold (h : s.Single number result) (htool : s.framework.drivesTool = false)
    (hpending : s.pending ≠ []) (hordinary : ∀ e ∈ events, e.Ordinary number result)
    (hend : (s.run events).pending = []) :
    (s.run events).stats = summarized s.runs s.stats result := by
  rcases h.run_consumed hpending hordinary hend with ⟨before, after, hsplit, _, _, hstats⟩
  rw [increments_eq_nil htool, eq_comm, List.append_eq_nil_iff] at hsplit
  rw [hstats, hsplit.1, hsplit.2]
  rfl

/-- Where it is counted, the offload time at the poll goes into the inference time, and
    into nothing else. -/
theorem run_told (h : s.Single number result) (htool : s.framework.drivesTool = true)
    (hown : ∀ output, result = .ok output → output.framework = s.framework)
    (hpending : s.pending ≠ []) (hordinary : ∀ e ∈ events, e.Ordinary number result)
    (hend : (s.run events).pending = []) :
    (s.run events).stats =
      { s.stats with
        preproc := (givenBy Report.preprocessingOf? result).getD s.stats.preproc
        inference := ((givenBy Report.timingsOf? result).map fun t =>
          Report.withoutOffload t.2 (s.offloadAtPoll events) s.runs).getD s.stats.inference
        offload := (events.flatMap (SessionEvent.increments s.framework)).foldl Offload.addTotals
          s.stats.offload
        init := ((givenBy Report.timingsOf? result).map Prod.fst).getD s.stats.init } := by
  rcases h.run_consumed hpending hordinary hend with ⟨before, after, hsplit, hpoll, _, hstats⟩
  rw [hstats, summarized_eq htool hown, hsplit, List.foldl_append, hpoll]
  rfl

end Single

/-- The sessions are the same but for the inference time, field by field. Pending benchmarks are
    compared with the stages of their handles, and statistics category by category. -/
structure Agree (s t : Session) : Prop where
  framework : s.framework = t.framework
  runs : s.runs = t.runs
  breakdown : s.breakdown = t.breakdown
  counts : s.counts = t.counts
  peaks : s.peaks = t.peaks
  loads : s.loads = t.loads
  log : s.log = t.log
  pending : s.pending = t.pending
  completed : s.completed = t.completed
  stats : ∀ c : Latency, c ≠ .inference → s.stats.get c = t.stats.get c

/-- What depends on the statistics and the line alone is all that can differ between two merges
    of the same streams. Every other part of the session is fed by one stream, whose own order a
    merge keeps, so it comes to the same fold in both. The hypotheses are what is left to be
    compared. -/
theorem agree_of_merges {kernels : List KernelSnapshot} {devices : List DeviceSnapshot}
    {loads : List Loads} {s : Session} {first second : List SessionEvent}
    (hfirst : Merges number result kernels devices loads first)
    (hsecond : Merges number result kernels devices loads second)
    (hpending : (s.run first).pending = (s.run second).pending)
    (hcompleted : (s.run first).completed = (s.run second).completed)
    (hstats : ∀ c : Latency, c ≠ .inference →
      (s.run first).stats.get c = (s.run second).stats.get c) :
    (s.run first).Agree (s.run second) := by
  -- Each of the other parts listens to one stream alone, so that it is a fold over that stream,
  -- whatever stands in between.
  have hparts : ∀ events, Merges number result kernels devices loads events →
      (s.run events).breakdown = kernels.foldl absorb s.breakdown ∧
      (s.run events).counts = kernels.foldl (fun _ snapshot => snapshot.counts) s.counts ∧
      (s.run events).peaks
        = kernels.foldl (fun peaks snapshot => raisePeaks peaks snapshot.counts) s.peaks ∧
      (s.run events).loads = loads.foldl (fun _ l => l) s.loads ∧
      (s.run events).log = devices.foldl keepLines s.log := by
    intro events h
    rw [← h.kernels, ← h.devices, ← h.loads]
    refine ⟨run_part _ _ _ (fun e he s => ?_) s, run_part _ _ _ (fun e he s => ?_) s,
      run_part _ _ _ (fun e he s => ?_) s, run_part _ _ _ (fun e he s => ?_) s,
      run_part _ _ _ (fun e he s => ?_) s⟩
    · exact (follows_step (h.ordinary e he) s).breakdown
    · exact (follows_step (h.ordinary e he) s).counts
    · exact (follows_step (h.ordinary e he) s).peaks
    · exact (follows_step (h.ordinary e he) s).loads
    · exact (follows_step (h.ordinary e he) s).log
  rcases hparts first hfirst with ⟨hbreakdown, hcounts, hpeaks, hloads, hlog⟩
  rcases hparts second hsecond with ⟨hbreakdown', hcounts', hpeaks', hloads', hlog'⟩
  have hkept := Single.framework_run hfirst.ordinary s
  have hkept' := Single.framework_run hsecond.ordinary s
  exact ⟨hkept.1.trans hkept'.1.symm, hkept.2.trans hkept'.2.symm,
    hbreakdown.trans hbreakdown'.symm, hcounts.trans hcounts'.symm, hpeaks.trans hpeaks'.symm,
    hloads.trans hloads'.symm, hlog.trans hlog'.symm, hpending, hcompleted, hstats⟩

/-- Two merges of the same streams, with polls that consume the pending benchmark, if there
    is one, lead to sessions that agree on everything but the inference time. Even that is
    the same where offload time is not counted, and where no report gives it. Where a
    report gives it, each run's share of the offload total at the poll is taken off, so that
    more offload time before the poll never makes it larger. -/
theorem order_free {s : Session} {kernels : List KernelSnapshot} {devices : List DeviceSnapshot}
    {loads : List Loads} (hone : s.pending.length ≤ 1)
    (hresult : ∀ handle ∈ s.pending, ∀ r, handle.take?.1 = some r → r = result)
    (hown : ∀ output, result = .ok output → output.framework = s.framework)
    {first second : List SessionEvent}
    (hfirst : Merges s.completed result kernels devices loads first)
    (hsecond : Merges s.completed result kernels devices loads second)
    (hconsumed : (s.run first).pending = []) (hconsumed' : (s.run second).pending = []) :
    (s.run first).Agree (s.run second) ∧
    (s.framework.drivesTool = false ∨ s.pending = [] ∨ givenBy Report.timingsOf? result = none →
      (s.run first).stats.inference = (s.run second).stats.inference) ∧
    (s.framework.drivesTool = true → s.pending ≠ [] → ∀ start average,
      givenBy Report.timingsOf? result = some (start, average) →
        (s.run first).stats.inference
            = average - s.offloadAtPoll first / max s.runs 1 / 1000 ∧
        (s.run second).stats.inference
            = average - s.offloadAtPoll second / max s.runs 1 / 1000 ∧
        (s.offloadAtPoll first ≤ s.offloadAtPoll second →
          (s.run second).stats.inference ≤ (s.run first).stats.inference)) := by
  have hsingle := single_of_results hone hresult
  -- The offload times of the two runs are the same ones in another order, and adding them does
  -- not depend on it.
  have hsame : (first.flatMap (SessionEvent.increments s.framework)).Perm
      (second.flatMap (SessionEvent.increments s.framework)) :=
    (increments_perm hfirst).trans (increments_perm hsecond).symm
  have hpending := hconsumed.trans hconsumed'.symm
  by_cases hnil : s.pending = []
  · -- No benchmark is consumed, so the offload times are all that is added.
    rcases hsingle.run_idle hnil hfirst.ordinary with ⟨_, hcompleted, hstats⟩
    rcases hsingle.run_idle hnil hsecond.ordinary with ⟨_, hcompleted', hstats'⟩
    have hequal : (s.run first).stats = (s.run second).stats := by
      rw [hstats, hstats', Statistics.addAll, Statistics.addAll, hsame.foldl_eq]
    refine ⟨agree_of_merges hfirst hsecond hpending (hcompleted.trans hcompleted'.symm) ?_, ?_, ?_⟩
    · exact fun c _ => congrArg (·.get c) hequal
    · exact fun _ => congrArg Statistics.inference hequal
    · exact fun _ hsome => absurd hnil hsome
  · have hcompleted : ∀ events, Merges s.completed result kernels devices loads events →
        (s.run events).pending = [] → (s.run events).completed = s.completed + 1 := by
      intro events hevents hend
      rcases hsingle.run_consumed hnil hevents.ordinary hend with ⟨_, _, _, _, hmore, _⟩
      exact hmore
    -- Where the benchmark is consumed, only the statistics are left to be compared.
    have hagree := agree_of_merges hfirst hsecond hpending
      ((hcompleted first hfirst hconsumed).trans (hcompleted second hsecond hconsumed').symm)
    -- Unless the session drives the tool, nothing but the report writes to them.
    cases htool : s.framework.drivesTool with
    | false =>
      have hequal : (s.run first).stats = (s.run second).stats :=
        (hsingle.run_untold htool hnil hfirst.ordinary hconsumed).trans
          (hsingle.run_untold htool hnil hsecond.ordinary hconsumed').symm
      refine ⟨hagree fun c _ => congrArg (·.get c) hequal, ?_, ?_⟩
      · exact fun _ => congrArg Statistics.inference hequal
      · exact fun htrue => absurd htrue Bool.false_ne_true
    | true =>
      -- Else the report and the offload times do, and the two meet in the inference time alone:
      -- the report takes off what had been counted at the poll.
      have hstats := hsingle.run_told htool hown hnil hfirst.ordinary hconsumed
      have hstats' := hsingle.run_told htool hown hnil hsecond.ordinary hconsumed'
      refine ⟨hagree fun c hc => ?_, ?_, ?_⟩
      · rw [hstats, hstats', hsame.foldl_eq]
        cases c with
        | inference => exact absurd rfl hc
        | _ => rfl
      -- Without a time in the report, there is nothing that the poll could take off.
      · rintro (hfalse | hempty | hsilent)
        · cases hfalse
        · exact absurd hempty hnil
        · rw [hstats, hstats', hsilent]
          rfl
      · intro _ _ start average hgiven
        have hfound : (s.run first).stats.inference
            = average - s.offloadAtPoll first / max s.runs 1 / 1000 := by
          rw [hstats, hgiven]
          rfl
        have hfound' : (s.run second).stats.inference
            = average - s.offloadAtPoll second / max s.runs 1 / 1000 := by
          rw [hstats', hgiven]
          rfl
        -- More offload time before the poll leaves less of the average.
        refine ⟨hfound, hfound', fun hle => ?_⟩
        rw [hfound, hfound']
        exact Nat.sub_le_sub_left (Nat.div_le_div_right (Nat.div_le_div_right hle)) average

/-- The case of a benchmark that is consumed after both logs have counted six milliseconds,
    and of the same benchmark consumed before. -/
theorem order_free_offload :
    let result : JobResult := .ok ⟨.tflite,
      ["Inference timings in us: Init: 2000, Inference (avg): 5000"]⟩
    let kernel : SessionEvent := .kernel ⟨∅, [⟨.time,
      ["[1.0] TIME dsp: (app: benchmark_model) (ioctl) 0.004"]⟩], true⟩
    let device : SessionEvent := .device ⟨.ofList [("ExecutionBuilder",
      ["I ExecutionBuilder: (app: benchmark_model) (driver) 0.002"])], true⟩
    let s := (Session.start .tflite 2).track (.fresh .tflite)
    let late := s.run [kernel, device, .loads ∅, .deliver 0 result, .poll]
    let early := s.run [.poll, .deliver 0 result, .poll, .loads ∅, device, kernel]
    late.Agree early ∧ late.stats.inference = 2000 ∧ early.stats.inference = 5000 := by
  intro result kernel device s late early
  have hresult : ∀ handle ∈ s.pending, ∀ r, handle.take?.1 = some r → r = result := by
    intro handle hhandle r hr
    rw [List.mem_singleton.mp hhandle] at hr
    cases hr
  have hlate : Merges s.completed result _ _ _
      [kernel, device, .loads ∅, .deliver 0 result, .poll] :=
    ⟨rfl, rfl, rfl, by
      simp only [List.forall_mem_cons]
      exact ⟨.kernel _, .device _, .loads _, .deliver, .poll, List.forall_mem_nil _⟩⟩
  have hearly : Merges s.completed result _ _ _
      [.poll, .deliver 0 result, .poll, .loads ∅, device, kernel] :=
    ⟨rfl, rfl, rfl, by
      simp only [List.forall_mem_cons]
      exact ⟨.poll, .deliver, .poll, .loads _, .device _, .kernel _, List.forall_mem_nil _⟩⟩
  have hboth := order_free (by decide) hresult (fun _ h => Except.ok.inj h ▸ rfl) hlate hearly
    (by decide +kernel) (by decide +kernel)
  have htimes := hboth.2.2 rfl (by decide +kernel) 2000 5000 (by decide +kernel)
  refine ⟨hboth.1, htimes.1.trans ?_, htimes.2.1.trans ?_⟩
  · decide +kernel
  · decide +kernel

end Session

end AccelMonitor
