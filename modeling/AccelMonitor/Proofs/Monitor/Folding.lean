import AccelMonitor.Monitor.Loop
import AccelMonitor.Proofs.Handoff.Safety

/-!
# What Becomes of Published Snapshots

Which of the snapshots that the pollers put into their queues the session is told.

The foreground empties the queues once in every round. Whatever it takes out it tells
the session, once and in order, so in every state the snapshots that went into a queue
are those that the session was told and those that are still in the queue. A full
queue is all that can be left.

The queues are not emptied again after the loop. The pollers are still at work when
the foreground leaves it, and what they put into a queue since it was emptied last,
up to the end, stays there. So the report can lack snapshots that were published before
the loop was left, and it never has those that were published while the pollers were
stopping.

## Main definitions

* `Handoff.Folded`: Exactly what left the queue was folded in.
* `Monitor.Accounted`: This holds of both logs.

## Theorems

* `Accounted.foreground`, `Accounted.step`, `Accounted.run`: It holds after every run.
* `told_leaving_step`, `told_leaving_run`: Nothing is folded in once the loop was left.
* `folded_run`: Where the published snapshots are.
* `folded_run_expired`: A snapshot that is published too late.
* `left_unfolded`: A published snapshot that is missing at the end.
-/

namespace AccelMonitor

namespace Handoff

variable {α : Type} {places : Nat} {h : Handoff α} {told : List α}

/-- Exactly what left the queue was folded in, and the queue is as it should be. -/
structure Folded (places : Nat) (h : Handoff α) (told : List α) : Prop where
  taken : told = h.taken
  orderly : h.Orderly
  bounded : h.Bounded places

namespace Folded

theorem pollerStep (hf : h.Folded places told) (s : PollerStep α) :
    (h.pollerStep s).Folded places told :=
  ⟨hf.taken.trans (taken_pollerStep h s).symm, hf.orderly.pollerStep s, hf.bounded.step (.poller s)⟩

theorem raiseExit (hf : h.Folded places told) : h.raiseExit.Folded places told :=
  ⟨hf.taken, hf.orderly.raiseExit, hf.bounded.step .raiseExit⟩

/-- The oldest value is taken out and folded in. -/
theorem pop (hf : h.Folded places told) {a : α} (ha : h.queue.pop.1 = some a) :
    h.pop.Folded places (told ++ [a]) := by
  refine ⟨?_, hf.orderly.pop, hf.bounded.step .pop⟩
  simp only [Handoff.pop, ha, hf.taken, Option.toList_some]

end Folded

end Handoff

namespace Monitor

/-- The session was told all that its history says, and exactly the snapshots that were taken
    out of the queues. The history is kept beside the session and never read by it, so it can be
    compared with the two hand-offs. -/
structure Accounted (session : Session) (places : Nat) (m : Monitor) : Prop where
  session : m.session = session.run m.told
  kernel : m.kernel.Folded places (m.told.filterMap SessionEvent.kernel?)
  device : m.device.Folded places (m.told.filterMap SessionEvent.device?)

theorem accounted_start (quiet exitOnComplete : Bool) (session : Session) (capacity : Nat) :
    (start quiet exitOnComplete session capacity).Accounted session (max capacity 1) where
  session := rfl
  kernel := ⟨rfl, Handoff.orderly_start capacity, rfl, Nat.zero_le _⟩
  device := ⟨rfl, Handoff.orderly_start capacity, rfl, Nat.zero_le _⟩

namespace Accounted

variable {session : Session} {places : Nat} {m : Monitor}

/-- The session is told something that is not a snapshot of a log. -/
theorem tell (ha : m.Accounted session places) (event : SessionEvent)
    (hkernel : event.kernel? = none) (hdevice : event.device? = none) :
    (m.tell event).Accounted session places := by
  refine ⟨session_tell ha.session event, ?_, ?_⟩
  · simp only [Monitor.tell, List.filterMap_append, List.filterMap_cons_none hkernel,
      List.filterMap_nil, List.append_nil]
    exact ha.kernel
  · simp only [Monitor.tell, List.filterMap_append, List.filterMap_cons_none hdevice,
      List.filterMap_nil, List.append_nil]
    exact ha.device

theorem print (ha : m.Accounted session places) (lines : List String) :
    (m.print lines).Accounted session places := by
  rw [Monitor.print]
  split
  · exact ha
  · exact ⟨ha.session, ha.kernel, ha.device⟩

theorem leave (ha : m.Accounted session places) (reason : ExitReason) :
    (m.leave reason).Accounted session places :=
  ⟨ha.session, ha.kernel.raiseExit, ha.device.raiseExit⟩

theorem takeKernel (ha : m.Accounted session places) :
    m.takeKernel.Accounted session places := by
  rw [Monitor.takeKernel]
  split
  · rename_i snapshot hpop
    refine ⟨session_tell ha.session _, ?_, ?_⟩
    · simp only [Monitor.tell, List.filterMap_append]
      exact ha.kernel.pop hpop
    · simp only [Monitor.tell, List.filterMap_append]
      exact (List.append_nil _).symm ▸ ha.device
  · exact ⟨ha.session, ha.kernel, ha.device⟩

theorem takeDevice (ha : m.Accounted session places) :
    m.takeDevice.Accounted session places := by
  rw [Monitor.takeDevice]
  split
  · rename_i snapshot hpop
    refine ⟨session_tell ha.session _, ?_, ?_⟩
    · simp only [Monitor.tell, List.filterMap_append]
      exact (List.append_nil _).symm ▸ ha.kernel
    · simp only [Monitor.tell, List.filterMap_append]
      exact ha.device.pop hpop
  · exact ⟨ha.session, ha.kernel, ha.device⟩

theorem takeLoads (ha : m.Accounted session places) :
    m.takeLoads.Accounted session places := by
  have hdrained : Accounted session places
      { m with loads := m.loads.drain, phase := .benchmarks } :=
    ⟨ha.session, ha.kernel, ha.device⟩
  rw [Monitor.takeLoads]
  split
  · exact hdrained.tell _ rfl rfl
  · exact hdrained

/-- Polling for benchmarks tells the session one event, and what is printed and left behind it is
    not told. -/
theorem takeBenchmarks (ha : m.Accounted session places) :
    m.takeBenchmarks.Accounted session places := by
  have hpolled := ha.tell .poll rfl rfl
  have hshown : Accounted session places
      (if m.session.poll.1 = 0 then m.tell .poll
        else (m.tell .poll).print (Display.resultLines (m.tell .poll).session)) := by
    split
    · exact hpolled
    · exact hpolled.print _
  rw [Monitor.takeBenchmarks]
  generalize (if m.session.poll.1 = 0 then m.tell .poll
    else (m.tell .poll).print (Display.resultLines (m.tell .poll).session)) = shown at hshown
  split
  · exact hshown.leave .complete
  · exact ⟨hshown.session, hshown.kernel, hshown.device⟩

theorem pause (ha : m.Accounted session places) (moment : Moment) :
    (m.pause moment).Accounted session places := by
  have hshown : Accounted session places
      (if moment.statusDue then m.print [Display.statusLine m.session moment.seconds] else m) := by
    split
    · exact ha.print _
    · exact ha
  rw [Monitor.pause]
  generalize (if moment.statusDue then
    m.print [Display.statusLine m.session moment.seconds] else m) = shown at hshown
  split
  · exact hshown.leave .interrupted
  · exact ⟨hshown.session, hshown.kernel, hshown.device⟩

/-- A step of the foreground keeps the account. What the phases take from the queues is told to
    the session in the same step, and leaving, printing and pausing take nothing. -/
theorem foreground (ha : m.Accounted session places) (moment : Moment) :
    (m.foreground moment).Accounted session places := by
  rw [Monitor.foreground]
  cases m.phase with
  | watching =>
    simp only []
    split
    · exact ha.leave .timeUp
    · exact ⟨ha.session, ha.kernel, ha.device⟩
  | kernel => exact ha.takeKernel
  | device => exact ha.takeDevice
  | loads => exact ha.takeLoads
  | benchmarks => exact ha.takeBenchmarks
  | pausing => exact ha.pause moment
  | leaving =>
    simp only []
    split
    · have hclosed := ha.print m.closingLines
      exact ⟨hclosed.session, hclosed.kernel, hclosed.device⟩
    · exact ha
  | finished => exact ha

theorem step (ha : m.Accounted session places) (s : MonitorStep) :
    (m.step s).Accounted session places := by
  cases s with
  | kernel s => exact ⟨ha.session, ha.kernel.pollerStep s, ha.device⟩
  | device s => exact ⟨ha.session, ha.kernel, ha.device.pollerStep s⟩
  | loads s => exact ⟨ha.session, ha.kernel, ha.device⟩
  | deliver number result => exact ha.tell _ rfl rfl
  | foreground moment => exact ha.foreground moment

theorem run (ha : m.Accounted session places) (steps : List MonitorStep) :
    (m.run steps).Accounted session places := by
  induction steps generalizing m with
  | nil => exact ha
  | cons s steps ih => exact ih (ha.step s)

end Accounted

/-- The foreground is out of the loop. -/
def HasLeft (m : Monitor) : Prop :=
  m.phase = .leaving ∨ m.phase = .finished

theorem told_print (m : Monitor) (lines : List String) : (m.print lines).told = m.told := by
  rw [print]
  split
  · rfl
  · rfl

/-- Outside the loop a step folds nothing in, and there is no way back. The queues are drained
    inside the loop only. So whatever is in them when it is left, and whatever the pollers add
    while the foreground waits for them, is never told to the session. -/
theorem told_leaving_step {m : Monitor} (hleft : m.HasLeft) (s : MonitorStep) :
    (m.step s).HasLeft ∧
      (m.step s).told.filterMap SessionEvent.kernel? = m.told.filterMap SessionEvent.kernel? ∧
      (m.step s).told.filterMap SessionEvent.device? = m.told.filterMap SessionEvent.device? := by
  cases s with
  -- The pollers still fill their queues, but nobody looks at them.
  | kernel s => exact ⟨hleft, rfl, rfl⟩
  | device s => exact ⟨hleft, rfl, rfl⟩
  | loads s => exact ⟨hleft, rfl, rfl⟩
  -- A result is told to the session, and it is no snapshot.
  | deliver number result =>
    refine ⟨hleft, ?_, ?_⟩
    · simp only [step, tell, List.filterMap_append]
      exact List.append_nil _
    · simp only [step, tell, List.filterMap_append]
      exact List.append_nil _
  | foreground moment =>
    -- The foreground waits for the pollers, or it is done.
    rcases hleft with hphase | hphase
    · have hstep : m.step (.foreground moment) =
          if m.pollersGone then { m.print m.closingLines with phase := .finished } else m := by
        simp only [step, foreground, hphase]
      rw [hstep]
      split
      · have htold := told_print m m.closingLines
        exact ⟨Or.inr rfl, congrArg (List.filterMap _) htold, congrArg (List.filterMap _) htold⟩
      · exact ⟨Or.inl hphase, rfl, rfl⟩
    · have hstep : m.step (.foreground moment) = m := by
        simp only [step, foreground, hphase]
      rw [hstep]
      exact ⟨Or.inr hphase, rfl, rfl⟩

theorem told_leaving_run {m : Monitor} (hleft : m.HasLeft) (steps : List MonitorStep) :
    (m.run steps).told.filterMap SessionEvent.kernel? = m.told.filterMap SessionEvent.kernel? ∧
      (m.run steps).told.filterMap SessionEvent.device?
        = m.told.filterMap SessionEvent.device? := by
  induction steps generalizing m with
  | nil => exact ⟨rfl, rfl⟩
  | cons s steps ih =>
    have hstep := told_leaving_step hleft s
    have hrest := ih hstep.1
    exact ⟨hrest.1.trans hstep.2.1, hrest.2.trans hstep.2.2⟩

/-- Where the snapshots are that the pollers have published in a run. The session was
    told the first of them, once and in order, and the others are still in the queue, of
    which there are no more than it has places. From when the loop was left on the session
    is told none, so what is in a queue by then, and what is put into one afterwards, stays
    there. -/
theorem folded_run (quiet exitOnComplete : Bool) (session : Session) (capacity : Nat)
    (steps : List MonitorStep) :
    let m := (start quiet exitOnComplete session capacity).run steps
    m.session = session.run m.told ∧
      Offer.admitted m.kernel.offers
        = m.told.filterMap SessionEvent.kernel? ++ m.kernel.queue.items ∧
      Offer.admitted m.device.offers
        = m.told.filterMap SessionEvent.device? ++ m.device.queue.items ∧
      m.kernel.queue.items.length ≤ max capacity 1 ∧
      m.device.queue.items.length ≤ max capacity 1 ∧
      ∀ before after, steps = before ++ after →
        ((start quiet exitOnComplete session capacity).run before).HasLeft →
        m.told.filterMap SessionEvent.kernel?
            = ((start quiet exitOnComplete session capacity).run before).told.filterMap
                SessionEvent.kernel? ∧
          m.told.filterMap SessionEvent.device?
            = ((start quiet exitOnComplete session capacity).run before).told.filterMap
                SessionEvent.device? := by
  intro m
  have ha : m.Accounted session (max capacity 1) :=
    (accounted_start quiet exitOnComplete session capacity).run steps
  refine ⟨ha.session, ?_, ?_, ha.kernel.bounded.2, ha.device.bounded.2, ?_⟩
  · rw [ha.kernel.taken]
    exact ha.kernel.orderly.admitted
  · rw [ha.device.taken]
    exact ha.device.orderly.admitted
  -- What was told by the time the loop was left is all that is ever told.
  · rintro before after rfl hleft
    have hsplit : m = ((start quiet exitOnComplete session capacity).run before).run after :=
      List.foldl_append
    rw [hsplit]
    exact told_leaving_run hleft after

/-- A snapshot of which nothing is fresh. -/
def staleSnapshot : KernelSnapshot where
  counts := ∅
  fresh := false
  delta := []

/-- A poller is at work when the time is up. It still puts its snapshot into the queue, and
    the session is not told of it. -/
theorem folded_run_expired :
    let begun := start true false (Session.start .tflite 1) 10
    let before : List MonitorStep := [.kernel .check, .foreground ⟨true, false, false, 0⟩]
    let after : List MonitorStep := [.kernel (.poll (some staleSnapshot)), .kernel .attempt]
    (begun.run before).HasLeft ∧ (begun.run (before ++ after)).kernel.queue.items.length = 1 ∧
      (begun.run (before ++ after)).told.filterMap SessionEvent.kernel? = [] := by
  intro begun before after
  have hleft : (begun.run before).HasLeft := Or.inl rfl
  have hfolded := folded_run true false (Session.start .tflite 1) 10 (before ++ after)
  exact ⟨hleft, rfl, (hfolded.2.2.2.2.2 before after rfl hleft).1⟩

/-- The foreground goes round once. While it pauses, the poller publishes a snapshot with
    two milliseconds of offload time, and then the time is up. -/
theorem left_unfolded :
    let snapshot : KernelSnapshot :=
      { counts := ∅, fresh := true
        delta := KernelLog.classify KernelProbe.all
          ["[1.1] TIME adsprpc: (app: benchmark_model) (ioctl) 0.002"] }
    let moment : Moment := ⟨false, false, false, 0⟩
    let m := (start true false (Session.start .tflite 1) 10).run
      ([.kernel .check] ++ List.replicate 6 (.foreground moment)
        ++ [.kernel (.poll (some snapshot)), .kernel .attempt, .foreground ⟨true, false, false, 1⟩,
          .kernel .check, .device .check, .loads .check, .foreground ⟨true, false, false, 1⟩])
    m.phase = .finished ∧ m.reason = .timeUp ∧ (Offer.admitted m.kernel.offers).length = 1 ∧
      (m.told.filterMap SessionEvent.kernel?).length = 0 ∧ m.session.stats.offload = 0 ∧
      (m.session.step (.kernel snapshot)).stats.offload = 2000000 := by
  decide +kernel

end Monitor

end AccelMonitor
