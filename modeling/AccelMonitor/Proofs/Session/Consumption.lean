import AccelMonitor.Session.State
import Mathlib.Data.List.ReduceOption

/-!
# The Order of Consumption

Which benchmarks a session has consumed, and what a poll makes of the statistics.

The session never learns the number of a benchmark. It has a line of handles, and it goes
by what the handle at the front says: with a result the benchmark is consumed, without one
the poll is over. Against this stands what the workers came to, listed by the numbers of
the benchmarks and without regard to any poll. Only the first word of a worker counts.

`Accounts` relates the two. The list of what the workers came to is what was consumed,
followed by what the pending handles say. Every event keeps it so, and everything else can
be read off it: the numbers of benchmarks, the order of consumption, and the length and
the results of the next poll.

## Main definitions

* `leading`: The values in front of the first place without one.
* `outcomes`: What the workers came to, by the numbers of the benchmarks.
* `Session.consumed`: The results that a run has consumed.
* `Session.Accounts`: The invariant.
* `Session.InOrder`: What holds of a session after any events.

## Theorems

* `take?_deliver`, `take?_abandon`: The first word of a worker counts.
* `pollFrom_eq`: What a poll does, in one equation.
* `foldlM_outputs`: Failures and unknown reports leave the statistics alone.
* `Accounts.step`, `Accounts.run`: Every event keeps the invariant, and every run.
* `line_step`: What changes the numbers of benchmarks.
* `track_deliver`: A benchmark that ended before it is tracked.
* `benchmarks_in_order`: What holds after any events.
-/

namespace AccelMonitor

section Lists

variable {α β : Type}

/-- The values in front of the first place without one. -/
def leading (l : List (Option α)) : List α :=
  (l.takeWhile Option.isSome).reduceOption

theorem leading_cons_some (a : α) (l : List (Option α)) : leading (some a :: l) = a :: leading l :=
  rfl

theorem leading_cons_none (l : List (Option α)) : leading (none :: l) = [] := rfl

/-- A list of places is its leading values and the places after them. -/
theorem leading_append_drop (l : List (Option α)) :
    (leading l).map some ++ l.drop (leading l).length = l := by
  induction l with
  | nil => rfl
  | cons place l ih =>
    cases place with
    | none => rfl
    | some a =>
      rw [leading_cons_some, List.map_cons, List.length_cons, List.drop_succ_cons,
        List.cons_append, ih]

theorem map_modify {f : α → α} {k : β → β} {g : α → β} {l : List α}
    (h : ∀ a ∈ l, g (f a) = k (g a)) (n : Nat) :
    (l.modify n f).map g = (l.map g).modify n k := by
  induction l generalizing n with
  | nil => cases n <;> rfl
  | cons a l ih =>
    cases n with
    | zero => exact congrArg (· :: l.map g) (h a (List.mem_cons_self ..))
    | succ n => exact congrArg (g a :: ·) (ih (fun b hb => h b (List.mem_cons_of_mem a hb)) n)

/-- A change that leaves the front alone is one of the rest. -/
theorem modify_append {f : α → α} {front : List α} (h : ∀ a ∈ front, f a = a) (rest : List α)
    (n : Nat) :
    (front ++ rest).modify n f
      = if front.length ≤ n then front ++ rest.modify (n - front.length) f else front ++ rest := by
  induction front generalizing n with
  | nil => rfl
  | cons a front ih =>
    cases n with
    | zero => exact congrArg (· :: (front ++ rest)) (h a (List.mem_cons_self ..))
    | succ n =>
      simp only [List.cons_append, List.modify_succ_cons, List.length_cons,
        Nat.add_le_add_iff_right, Nat.add_sub_add_right]
      rw [ih (fun b hb => h b (List.mem_cons_of_mem a hb)) n]
      split
      · rfl
      · rfl

end Lists

namespace Handle

/-- Looking at a handle without a result changes nothing. -/
theorem take?_of_none {h : Handle} (hnone : h.take?.1 = none) : h.take? = (none, h) := by
  rcases h with ⟨framework, stage⟩
  rcases stage with mail | result | _
  · cases mail with
    | awaited => rfl
    | delivered result => cases hnone
    | abandoned => cases hnone
  · cases hnone
  · rfl

/-- A result counts if it is the first word of the worker. -/
theorem take?_deliver {h : Handle} (htaken : h.stage ≠ .taken) (result : JobResult) :
    (h.deliver result).take?.1 = h.take?.1.or (some result) := by
  rcases h with ⟨framework, stage⟩
  rcases stage with mail | kept | _
  · cases mail <;> rfl
  · rfl
  · exact absurd rfl htaken

/-- A worker that goes away is one that sends a certain failure. -/
theorem take?_abandon_eq (h : Handle) :
    h.abandon.take?.1 = (h.deliver (.error .poolClosed)).take?.1 := by
  rcases h with ⟨framework, stage⟩
  rcases stage with mail | result | _
  · cases mail <;> rfl
  · rfl
  · rfl

/-- A worker that goes away without a word leaves a failure. -/
theorem take?_abandon {h : Handle} (htaken : h.stage ≠ .taken) :
    h.abandon.take?.1 = h.take?.1.or (some (.error .poolClosed)) :=
  (take?_abandon_eq h).trans (take?_deliver htaken (.error .poolClosed))

theorem stage_deliver {h : Handle} (htaken : h.stage ≠ .taken) (result : JobResult) :
    (h.deliver result).stage ≠ .taken := by
  rw [deliver]
  split
  · simp only [ne_eq, reduceCtorEq, not_false_eq_true]
  · exact htaken

theorem stage_abandon {h : Handle} (htaken : h.stage ≠ .taken) : h.abandon.stage ≠ .taken := by
  rw [abandon]
  split
  · simp only [ne_eq, reduceCtorEq, not_false_eq_true]
  · exact htaken

end Handle

/-- A benchmark is tracked. -/
def SessionEvent.isTrack : SessionEvent → Bool
  | .track _ => true
  | _ => false

/-- Benchmarks are polled. -/
def SessionEvent.isPoll : SessionEvent → Bool
  | .poll => true
  | _ => false

/-- What the workers have come to after one more event, by the numbers of the
    benchmarks. -/
def SessionEvent.note (ended : List (Option JobResult)) : SessionEvent → List (Option JobResult)
  | .track _ => ended ++ [none]
  | .deliver number result => ended.modify number (·.or (some result))
  | .abandon number => ended.modify number (·.or (some (.error .poolClosed)))
  | _ => ended

/-- What the workers have come to, by the numbers of the benchmarks. -/
def outcomes (events : List SessionEvent) : List (Option JobResult) :=
  events.foldl SessionEvent.note []

/-- The output that can be summarized: that of a job that did not fail, of a framework
    whose reports are known. -/
def usable? : JobResult → Option JobOutput
  | .ok output => if output.framework = .mlperf then none else some output
  | .error _ => none

namespace Session

/-- The results of the pending benchmarks that have ended, up to the first that has
    not. -/
def finished (handles : List Handle) : List JobResult :=
  leading (handles.map fun h => h.take?.1)

/-- The results that an event consumes. -/
def consumedStep (s : Session) : SessionEvent → List JobResult
  | .poll => finished s.pending
  | _ => []

/-- The results that some events consume, in order. -/
def consumed (s : Session) : List SessionEvent → List JobResult
  | [] => []
  | event :: events => s.consumedStep event ++ (s.step event).consumed events

/-- A poll consumes the benchmarks that have ended, up to the first that has not, and changes
    nothing but the statistics and the line. A benchmark further back that has ended already has
    to wait, so reports are folded in in the order in which the benchmarks were started. -/
theorem pollFrom_eq (handles : List Handle) (s : Session) :
    pollFrom handles s = ((finished handles).length,
      { s with
        stats := (finished handles).foldl (summarized s.runs) s.stats
        pending := handles.drop (finished handles).length
        completed := s.completed + (finished handles).length }) := by
  induction handles generalizing s with
  | nil => rfl
  | cons handle rest ih =>
    -- The poll goes on exactly as long as the handles in front have a result.
    cases hready : handle.take?.1 with
    | none =>
      have hlook := Handle.take?_of_none hready
      have hfinished : finished (handle :: rest) = [] := by
        rw [finished, List.map_cons, hready, leading_cons_none]
      rw [pollFrom, hlook, hfinished]
      rfl
    | some result =>
      have hfinished : finished (handle :: rest) = result :: finished rest := by
        rw [finished, List.map_cons, hready, leading_cons_some, finished]
      have htake : handle.take? = (some result, handle.take?.2) := Prod.ext hready rfl
      rw [pollFrom, htake, hfinished]
      simp only [ih, settle, List.length_cons, List.drop_succ_cons, List.foldl_cons, Prod.mk.injEq,
        true_and, mk.injEq]
      omega

/-- Summarizing the usable outputs never fails, and the other results leave the statistics
    alone. -/
theorem foldlM_outputs (runs : Nat) (results : List JobResult) (stats : Statistics) :
    (results.filterMap usable?).foldlM
        (fun stats o => Report.absorb o.lines o.framework runs stats) stats
      = .ok (results.foldl (summarized runs) stats) := by
  induction results generalizing stats with
  | nil => rfl
  | cons result results ih =>
    rw [List.foldl_cons, ← ih]
    cases result with
    | error e => rfl
    | ok output =>
      rcases output with ⟨framework, lines⟩
      -- Each kind of report is read by a reader that cannot fail, or not at all.
      cases framework with
      | mlperf => rfl
      | tflite => rfl
      | tfliteApp => rfl
      | snpe => rfl

/-- The session has consumed the first benchmarks, and the others are pending. What the workers
    have come to is listed by the numbers of the benchmarks, apart from the session, and the
    session has to agree with that list from its own place on. -/
structure Accounts (s : Session) (ended : List (Option JobResult)) (results : List JobResult) :
    Prop where
  /-- What the workers came to is what was consumed and what the handles say. -/
  ended_eq : ended = results.map some ++ s.pending.map fun h => h.take?.1
  completed : s.completed = results.length
  /-- No result has been taken past the session. -/
  untaken : ∀ h ∈ s.pending, h.stage ≠ .taken

theorem accounts_start (framework : Framework) (runs : Nat) :
    (start framework runs).Accounts [] [] :=
  ⟨rfl, rfl, List.forall_mem_nil _⟩

namespace Accounts

variable {s : Session} {ended : List (Option JobResult)} {results : List JobResult}

/-- A worker says something about a benchmark. A word is accepted only if there is none yet, in
    the list of what was said as in the handle, so both go on to agree. Benchmarks that were
    consumed have their word already, so it does not change what they gave. -/
theorem updateHandle (h : s.Accounts ended results) (number : Nat) {f : Handle → Handle}
    {word : JobResult} (hstage : ∀ h : Handle, h.stage ≠ .taken → (f h).stage ≠ .taken)
    (hword : ∀ h : Handle, h.stage ≠ .taken → (f h).take?.1 = h.take?.1.or (some word)) :
    (s.updateHandle number f).Accounts (ended.modify number (·.or (some word))) results := by
  rcases h with ⟨hended, hcompleted, huntaken⟩
  have hconsumed : ∀ place ∈ results.map some, place.or (some word) = place := by
    intro place hplace
    rcases List.mem_map.mp hplace with ⟨result, _, rfl⟩
    rfl
  rw [hended, modify_append hconsumed, List.length_map, ← hcompleted]
  rw [Session.updateHandle]
  -- The benchmark has not been consumed, or the event comes too late.
  split
  · refine ⟨?_, hcompleted, fun h hh => ?_⟩
    · have hword' := fun h hh => hword h (huntaken h hh)
      rw [map_modify (k := (·.or (some word))) hword']
    · rcases List.mem_iff_getElem?.mp hh with ⟨i, hi⟩
      rw [List.getElem?_modify] at hi
      rcases Option.map_eq_some_iff.mp hi with ⟨g, hg, rfl⟩
      have hg := huntaken g (List.mem_of_getElem? hg)
      split
      · exact hstage g hg
      · exact hg
  · exact ⟨rfl, hcompleted, huntaken⟩

theorem poll (h : s.Accounts ended results) :
    s.poll.2.Accounts ended (results ++ finished s.pending) := by
  rcases h with ⟨hended, hcompleted, huntaken⟩
  rw [Session.poll, pollFrom_eq]
  refine ⟨?_, ?_, fun h hh => huntaken h (List.mem_of_mem_drop hh)⟩
  · rw [hended, List.map_append, List.append_assoc, List.map_drop]
    exact congrArg _ (leading_append_drop _).symm
  · rw [List.length_append, hcompleted]

/-- Each event keeps the account between what the workers said, what is pending and what was
    consumed. Only polling consumes. -/
theorem step (h : s.Accounts ended results) (event : SessionEvent) :
    (s.step event).Accounts (event.note ended) (results ++ s.consumedStep event) := by
  cases event with
  | poll => exact h.poll
  | track framework =>
    rcases h with ⟨hended, hcompleted, huntaken⟩
    simp only [consumedStep, List.append_nil]
    -- A session that is tracked stands at the end of the line, and nothing was taken from it.
    refine ⟨?_, hcompleted, fun h hh => ?_⟩
    · simp only [SessionEvent.note, hended, Session.step, track, List.map_append,
        List.append_assoc]
      rfl
    · rcases List.mem_append.mp hh with hh | hh
      · exact huntaken h hh
      · rw [List.mem_singleton.mp hh]
        simp only [Handle.fresh, ne_eq, reduceCtorEq, not_false_eq_true]
  | deliver number result =>
    simp only [consumedStep, List.append_nil]
    -- A result that arrives changes the stage of one handle and takes nothing.
    exact h.updateHandle number (fun _ ht => Handle.stage_deliver ht result)
      fun _ ht => Handle.take?_deliver ht result
  | abandon number =>
    simp only [consumedStep, List.append_nil]
    exact h.updateHandle number (fun _ ht => Handle.stage_abandon ht)
      fun _ ht => Handle.take?_abandon ht
  -- The others leave the line and the number of consumed benchmarks alone.
  | kernel snapshot =>
    simp only [consumedStep, List.append_nil, Session.step, applyKernel]
    split
    · exact ⟨h.ended_eq, h.completed, h.untaken⟩
    · exact ⟨h.ended_eq, h.completed, h.untaken⟩
  | device snapshot =>
    simp only [consumedStep, List.append_nil, Session.step, applyDevice]
    split
    · exact ⟨h.ended_eq, h.completed, h.untaken⟩
    · exact h
  | loads loads =>
    simp only [consumedStep, List.append_nil]
    exact ⟨h.ended_eq, h.completed, h.untaken⟩
  | clear =>
    simp only [consumedStep, List.append_nil]
    exact ⟨h.ended_eq, h.completed, h.untaken⟩

theorem run (h : s.Accounts ended results) (events : List SessionEvent) :
    (s.run events).Accounts (events.foldl SessionEvent.note ended)
      (results ++ s.consumed events) := by
  induction events generalizing s ended results with
  | nil =>
    rw [consumed, List.append_nil]
    exact h
  | cons event events ih =>
    rw [consumed, ← List.append_assoc]
    exact ih (h.step event)

end Accounts

/-- There is one place for the outcome of each benchmark that was ever tracked. -/
theorem length_outcomes (events : List SessionEvent) (ended : List (Option JobResult)) :
    (events.foldl SessionEvent.note ended).length
      = ended.length + events.countP SessionEvent.isTrack := by
  induction events generalizing ended with
  | nil => rfl
  | cons event events ih =>
    have hnote : (event.note ended).length = ended.length + if event.isTrack then 1 else 0 := by
      cases event with
      | track framework => exact List.length_append
      | deliver number result => exact List.length_modify ..
      | abandon number => exact List.length_modify ..
      | _ => rfl
    rw [List.foldl_cons, ih, hnote, List.countP_cons]
    omega

/-- Only tracking adds to the line, and only polling takes from it. A result
    that arrives and a worker that is lost change a handle where it stands, and no more. -/
theorem line_step (s : Session) {event : SessionEvent} (htrack : event.isTrack = false)
    (hpoll : event.isPoll = false) :
    (s.step event).completed = s.completed ∧ (s.step event).pending.length = s.pending.length := by
  have hupdate : ∀ (number : Nat) (f : Handle → Handle),
      (s.updateHandle number f).completed = s.completed ∧
        (s.updateHandle number f).pending.length = s.pending.length := by
    intro number f
    rw [updateHandle]
    split
    · exact ⟨rfl, List.length_modify ..⟩
    · exact ⟨rfl, rfl⟩
  -- A result or a lost worker changes a handle in place, and the rest does not touch the line.
  cases event with
  | track framework => cases htrack
  | poll => cases hpoll
  | deliver number result => exact hupdate number _
  | abandon number => exact hupdate number _
  | kernel snapshot =>
    rw [step, applyKernel]
    split
    · exact ⟨rfl, rfl⟩
    · exact ⟨rfl, rfl⟩
  | device snapshot =>
    rw [step, applyDevice]
    split
    · exact ⟨rfl, rfl⟩
    · exact ⟨rfl, rfl⟩
  | loads loads => exact ⟨rfl, rfl⟩
  | clear => exact ⟨rfl, rfl⟩

/-- A benchmark that has ended before it is tracked is one that ends right after. -/
theorem track_deliver (s : Session) (framework : Framework) (result : JobResult) :
    s.track ((Handle.fresh framework).deliver result)
      = s.run [.track framework, .deliver (s.completed + s.pending.length) result] := by
  have hlast : (s.pending ++ [Handle.fresh framework]).modify s.pending.length (·.deliver result)
      = s.pending ++ [(Handle.fresh framework).deliver result] := by
    induction s.pending with
    | nil => rfl
    | cons handle rest ih => exact congrArg (handle :: ·) ih
  simp only [run, List.foldl_cons, List.foldl_nil, step, deliver, updateHandle, track, clear,
    Nat.le_add_right, if_true, Nat.add_sub_cancel_left, hlast]
  rfl

/-- What holds of a session that has consumed some results, after some events. -/
structure InOrder (s : Session) (events : List SessionEvent) (results : List JobResult) : Prop where
  /-- Every benchmark that was tracked has been consumed or is pending. -/
  total : s.completed + s.pending.length = events.countP SessionEvent.isTrack
  /-- Neither number changes unless benchmarks are tracked or polled. -/
  unchanged : ∀ event : SessionEvent, event.isTrack = false → event.isPoll = false →
    (s.step event).completed = s.completed ∧ (s.step event).pending.length = s.pending.length
  /-- A benchmark that has ended before it is tracked is one that ends right after. -/
  early : ∀ (framework : Framework) (result : JobResult),
    s.track ((Handle.fresh framework).deliver result)
      = s.run [.track framework, .deliver (s.completed + s.pending.length) result]
  /-- What was consumed are the results of the benchmarks tracked first, one of each and in
      the order of tracking. -/
  consumed : results.map some = (outcomes events).take s.completed
  /-- A poll consumes the benchmarks after those, up to the first that has not ended. It
      summarizes the usable outputs among their results, in order and each as a report of
      its own framework, and changes nothing else. -/
  poll : ∃ stats, ((leading ((outcomes events).drop s.completed)).filterMap usable?).foldlM
      (fun stats o => Report.absorb o.lines o.framework s.runs stats) s.stats = .ok stats ∧
    s.poll = ((leading ((outcomes events).drop s.completed)).length,
      { s with
        stats
        pending := s.pending.drop (leading ((outcomes events).drop s.completed)).length
        completed := s.completed + (leading ((outcomes events).drop s.completed)).length })

/-- After any events, a session has consumed the results of the benchmarks that were
    tracked first, each once and in order, and the next poll goes on from there. -/
theorem benchmarks_in_order (framework : Framework) (runs : Nat) (events : List SessionEvent) :
    ((start framework runs).run events).InOrder events
      ((start framework runs).consumed events) := by
  have haccounts := (accounts_start framework runs).run events
  rw [List.nil_append] at haccounts
  rcases haccounts with ⟨hended, hcompleted, _⟩
  have hlength := length_outcomes events []
  have hpending : (outcomes events).drop ((start framework runs).run events).completed
      = ((start framework runs).run events).pending.map fun h => h.take?.1 := by
    rw [outcomes, hended, hcompleted]
    exact List.drop_left' (List.length_map ..)
  refine ⟨?_, fun event => line_step _, track_deliver _, ?_, ?_⟩
  · rw [hended, List.length_append, List.length_map, List.length_map, ← hcompleted] at hlength
    rw [hlength]
    exact Nat.zero_add _
  · rw [outcomes, hended, hcompleted]
    exact (List.take_left' (List.length_map ..)).symm
  · rw [hpending]
    refine ⟨_, foldlM_outputs _ _ _, ?_⟩
    rw [Session.poll, pollFrom_eq]
    rfl

end Session

end AccelMonitor
