import AccelMonitor.Proofs.Benchmark.Moves
import Mathlib.Data.List.Basic

/-!
# The Answers to Launches

Which result a handle gives.

A handle is told one result at most, by the worker that executed the job of its launch.
What the handle is depends on that result alone and on what the foreground did with it,
and `Handle.Fits` lists the possibilities. A result was sent if and only if the execution
of the launch is over, so nothing else can have been delivered; it was handed out once if
the handle has nothing left to give, and not at all otherwise. A handle that was dropped
gives nothing and can be ignored.

## Main definitions

* `Handle.Fits`: What a handle can be, by the result that was sent.
* `Chronicle.answer?`: The result that was sent to a launch.
* `Chronicle.takenFrom`: The results that the foreground took from a launch.
* `Pool.Answered`: Every handle is one that fits.

## Theorems

* `Fits.deliver`, `Fits.look`, `Fits.collect`, `Fits.drop`: What can be done with a handle.
* `Fits.wait`: What waiting gives.
* `Answered.touch`: Something is done with one handle.
* `Answered.step`: Every step keeps the handles fitting.
* `dropped_run`: A handle is missing only if it was dropped.
-/

namespace AccelMonitor

namespace Handle

/-- What the handle of a launch can be, by the result that was sent to it and those that
    were taken from it. A dropped handle is `none`. -/
inductive Fits (framework : Framework) :
    Option JobResult → List JobResult → Option Handle → Prop where
  | awaited : Fits framework none [] (some ⟨framework, .unread .awaited⟩)
  | delivered (result : JobResult) :
      Fits framework (some result) [] (some ⟨framework, .unread (.delivered result)⟩)
  | received (result : JobResult) :
      Fits framework (some result) [] (some ⟨framework, .received result⟩)
  | taken (result : JobResult) :
      Fits framework (some result) [result] (some ⟨framework, .taken⟩)
  | dropped (answer : Option JobResult) : Fits framework answer [] none
  | droppedTaken (result : JobResult) : Fits framework (some result) [result] none

namespace Fits

variable {framework : Framework} {answer : Option JobResult} {taken : List JobResult}
  {slot : Option Handle}

theorem deliver (h : Fits framework none taken slot) (result : JobResult) :
    Fits framework (some result) taken (slot.map (·.deliver result)) := by
  cases h with
  | awaited => exact .delivered result
  | dropped => exact .dropped _

theorem look (h : Fits framework answer taken slot) :
    Fits framework answer taken (slot.map fun handle => handle.hasResult.2) := by
  cases h with
  | awaited => exact .awaited
  | delivered result => exact .received result
  | received result => exact .received result
  | taken result => exact .taken result
  | dropped => exact .dropped _
  | droppedTaken result => exact .droppedTaken result

theorem collect (h : Fits framework answer taken slot) :
    Fits framework answer (taken ++ (slot.bind fun handle => handle.take?.1).toList)
      (slot.map fun handle => handle.take?.2) := by
  cases h with
  | awaited => exact .awaited
  | delivered result => exact .taken result
  | received result => exact .taken result
  | taken result => exact .taken result
  | dropped => exact .dropped _
  | droppedTaken result => exact .droppedTaken result

theorem drop (h : Fits framework answer taken slot) : Fits framework answer taken none := by
  cases h with
  | taken result => exact .droppedTaken result
  | droppedTaken result => exact .droppedTaken result
  | _ => exact .dropped _

/-- A handle that has not given its result away gives what was sent. -/
theorem wait {handle : Handle} (h : Fits framework answer taken (some handle)) :
    handle.framework = framework ∧ (handle.stage ≠ .taken → handle.wait = answer) := by
  cases h with
  | taken result => exact ⟨rfl, fun htaken => absurd rfl htaken⟩
  | _ => exact ⟨rfl, fun _ => rfl⟩

end Fits

end Handle

namespace Chronicle

/-- The result that was sent to a launch, if its job has been executed. -/
def answer? (c : Chronicle) (ticket : Nat) : Option JobResult :=
  (executions c.events)[ticket]?.bind Execution.result

/-- The results that the foreground took from the handle of a launch. -/
def takenFrom (c : Chronicle) (ticket : Nat) : List JobResult :=
  (c.handed.filter fun e => e.1 = ticket).map Prod.snd

/-- Only sending a result changes a result. The answer to a launch is read off its execution, and
    the other events either begin an execution, which has no result yet, or add to the dialogue of
    one. -/
theorem answer?_concat (c : Chronicle) {event : WorkEvent}
    (hplace : ∀ worker t job patience, event = .taken worker t job patience →
      t = (executions c.events).length)
    (hsilent : ∀ worker t result, event ≠ .sent worker t result) (jobs : List Job)
    (handed : List (Nat × JobResult)) (t : Nat) :
    answer? ⟨jobs, c.events ++ [event], handed⟩ t = c.answer? t := by
  rw [answer?, answer?, executions_concat, getElem?_recordEvent hplace]
  split
  · rename_i hticket
    cases event with
    | taken worker ticket job patience =>
      -- The execution is new, and there was none in its place.
      have hfirst := hplace worker ticket job patience rfl
      rw [List.getElem?_eq_none (by rw [← hticket, WorkEvent.ticket]; omega)]
      rfl
    | asked worker ticket command answer =>
      cases (executions c.events)[t]? with
      | none => rfl
      | some e => rfl
    | sent worker ticket result => exact absurd rfl (hsilent worker ticket result)
  · rfl

theorem answer?_sent (c : Chronicle) (worker ticket : Nat) (result : JobResult) (jobs : List Job)
    (handed : List (Nat × JobResult)) (t : Nat) :
    answer? ⟨jobs, c.events ++ [.sent worker ticket result], handed⟩ t
      = if ticket = t then (executions c.events)[t]?.map fun _ => result else c.answer? t := by
  rw [answer?, answer?, executions_concat, getElem?_recordEvent (by rintro w t j n ⟨⟩),
    WorkEvent.ticket]
  split
  · cases (executions c.events)[t]? with
    | none => rfl
    | some e => rfl
  · rfl

/-- What is handed out for one ticket adds to what was taken from its handle, and to no other. -/
theorem takenFrom_append (c : Chronicle) (jobs : List Job) (events : List WorkEvent)
    (ticket : Nat) (results : List JobResult) (t : Nat) :
    takenFrom ⟨jobs, events, c.handed ++ results.map fun result => (ticket, result)⟩ t
      = c.takenFrom t ++ if ticket = t then results else [] := by
  rw [takenFrom, takenFrom, List.filter_append, List.map_append]
  refine congrArg ((c.handed.filter fun e => e.1 = t).map Prod.snd ++ ·) ?_
  by_cases hsame : ticket = t
  · rw [if_pos hsame, List.filter_eq_self.mpr fun e he => ?_, List.map_map]
    · exact List.map_id _
    · rcases List.mem_map.mp he with ⟨result, _, rfl⟩
      exact decide_eq_true hsame
  · rw [if_neg hsame, List.filter_eq_nil_iff.mpr fun e he => ?_]
    · rfl
    · rcases List.mem_map.mp he with ⟨result, _, rfl⟩
      exact mt of_decide_eq_true hsame

end Chronicle

namespace Pool

variable {σ : Type}

/-- Every handle is one that fits the result that was sent to its launch. A handle knows nothing
    of the executions, so this is what ties the two together: what it gives away is the answer
    to its own launch, and it gives that away once. -/
structure Answered (c : Chronicle) (p : Pool σ) : Prop where
  fits : ∀ (t : Nat) (job : Job), c.jobs[t]? = some job →
    ∃ slot, p.handles[t]? = some slot ∧
      Handle.Fits job.framework (c.answer? t) (c.takenFrom t) slot
  /-- Nothing was taken from a launch that has not happened. -/
  launched : ∀ e ∈ c.handed, e.1 < c.jobs.length

namespace Answered

variable {c c' : Chronicle} {p p' : Pool σ}

/-- Something is done with one handle. What there is to show is what becomes of that handle: the
    others keep their place, their answer and what was taken from them, so they fit as before. -/
theorem touch (h : Answered c p) (hjobs : c'.jobs = c.jobs) {ticket : Nat}
    {f : Option Handle → Option Handle} (hhandles : p'.handles = p.handles.modify ticket f)
    (hothers : ∀ t, t ≠ ticket → c'.answer? t = c.answer? t ∧ c'.takenFrom t = c.takenFrom t)
    (hfits : ∀ framework slot, p.handles[ticket]? = some slot →
      Handle.Fits framework (c.answer? ticket) (c.takenFrom ticket) slot →
      Handle.Fits framework (c'.answer? ticket) (c'.takenFrom ticket) (f slot))
    (hlaunched : ∀ e ∈ c'.handed, e.1 < c'.jobs.length) : Answered c' p' := by
  refine ⟨fun t job hjob => ?_, hlaunched⟩
  rw [hjobs] at hjob
  rcases h.fits t job hjob with ⟨slot, hslot, hfit⟩
  rw [hhandles]
  by_cases ht : t = ticket
  · subst ht
    refine ⟨f slot, ?_, hfits _ slot hslot hfit⟩
    rw [List.getElem?_modify_eq, hslot]
    rfl
  · -- Another handle: neither it nor what it is compared with has changed.
    refine ⟨slot, ?_, ?_⟩
    · rw [List.getElem?_modify_ne _ _ (Ne.symm ht)]
      exact hslot
    · rw [(hothers t ht).1, (hothers t ht).2]
      exact hfit

/-- Nothing is done with any handle. -/
theorem same (h : Answered c p) (hjobs : c'.jobs = c.jobs) (hhandles : p'.handles = p.handles)
    (hanswer : ∀ t, c'.answer? t = c.answer? t) (hhanded : c'.handed = c.handed) :
    Answered c' p' := by
  refine ⟨fun t job hjob => ?_, ?_⟩
  · rw [hjobs] at hjob
    rw [hhandles, hanswer, Chronicle.takenFrom, hhanded]
    exact h.fits t job hjob
  · rw [hhanded, hjobs]
    exact h.launched

/-- A new handle has nothing to give. Its number is the length of the list of launches, which no
    execution has reached yet: those come from the launches before it, in order. So no answer
    can be waiting for it, and nothing can have been taken under its number. -/
theorem launch (h : Answered c p) (hworking : Working c p) (job : Job) (line : List (Nat × Job)) :
    Answered { c with jobs := c.jobs ++ [job] }
      { p with line, handles := p.handles ++ [some (.fresh job.framework)] } := by
  -- No execution has come to the new number yet, and nothing was taken under it.
  have hnone : c.answer? c.jobs.length = none := by
    rw [Chronicle.answer?, List.getElem?_eq_none (by have := hworking.count; omega)]
    rfl
  have hnothing : c.takenFrom c.jobs.length = [] := by
    rw [Chronicle.takenFrom, List.filter_eq_nil_iff.mpr fun e he => ?_]
    · rfl
    · have hbefore := h.launched e he
      simp only [decide_eq_true_eq]
      omega
  -- The old handles stand where they stood, and the new one is at the end.
  refine ⟨fun t job' hjob => ?_, fun e he => ?_⟩
  · change ∃ slot, _ ∧ Handle.Fits _ (c.answer? t) (c.takenFrom t) slot
    rw [List.getElem?_append] at hjob ⊢
    rw [hworking.handles]
    split at hjob
    · rename_i hold
      rw [if_pos hold]
      exact h.fits t job' hjob
    · rename_i hnew
      have hlast := (List.getElem?_eq_some_iff.mp hjob).1
      rw [List.length_singleton] at hlast
      have ht : t = c.jobs.length := by
        omega
      subst ht
      rw [if_neg hnew, hnone, hnothing]
      rw [Nat.sub_self] at hjob ⊢
      cases hjob
      exact ⟨_, rfl, .awaited⟩
  · rw [List.length_append]
    exact Nat.lt_succ_of_lt (h.launched e he)

/-- Every step keeps every handle in accord with what its launch was answered and what was taken
    from it. Two moves say something new of a handle, the one that sends a result and the one
    that collects it, and each of them touches the slot of its own number alone. -/
theorem step (h : Answered c p) (hworking : Working c p) (sh : Shell σ) (step : PoolStep) :
    Answered (record sh p step c) (p.step sh step) := by
  have hmove := move_step sh p step
  rw [record]
  generalize observed sh p step = events, p.step sh step = next at hmove
  cases hmove with
  | launch job hopen =>
    have hjob : admitted p (.launch job) = [job] := if_neg (ne_true_of_eq_false hopen)
    simp only [hjob, handedOut, List.append_nil]
    exact h.launch hworking job _
  | take worker patience ticket job rest hworker hline =>
    -- The job at the head of the line carries the number of the next execution.
    have htickets := hworking.tickets
    rw [hline, List.map_cons, List.length_cons, List.range'_succ, List.cons.injEq] at htickets
    simp only [admitted, handedOut, List.append_nil]
    refine h.same rfl rfl (c.answer?_concat ?_ (by rintro w t r ⟨⟩) _ _) rfl
    rintro w t j n heq
    cases heq
    exact htickets.1
  | leave =>
    simp only [admitted, handedOut, List.append_nil]
    exact h.same rfl rfl (fun _ => rfl) rfl
  | ask worker ticket command next hworker =>
    simp only [admitted, handedOut, List.append_nil]
    exact h.same rfl rfl (c.answer?_concat (by rintro w t j n ⟨⟩) (by rintro w t r ⟨⟩) _ _) rfl
  | send worker ticket result hworker =>
    -- The result is the first answer of this launch, since its execution was still running.
    rcases hworking.workers.current hworker with ⟨e, he, _, hresult, _⟩
    simp only [admitted, handedOut, List.append_nil]
    have hnone : c.answer? ticket = none := by
      rw [Chronicle.answer?, he]
      exact hresult
    refine h.touch rfl rfl (fun t ht => ⟨?_, rfl⟩) (fun framework slot _ hfit => ?_) h.launched
    · rw [Chronicle.answer?_sent, if_neg (Ne.symm ht)]
    · rw [Chronicle.answer?_sent, if_pos rfl, he]
      rw [hnone] at hfit
      exact hfit.deliver result
  | look ticket =>
    simp only [admitted, handedOut, List.append_nil]
    exact h.touch rfl rfl (fun t _ => ⟨rfl, rfl⟩) (fun _ _ _ hfit => hfit.look) h.launched
  | collect ticket =>
    simp only [admitted, List.append_nil, handedOut]
    refine h.touch rfl rfl (fun t ht => ⟨rfl, ?_⟩) (fun framework slot hslot hfit => ?_) ?_
    · rw [Chronicle.takenFrom_append, if_neg (Ne.symm ht), List.append_nil]
    · rw [Chronicle.takenFrom_append, if_pos rfl, hslot]
      exact hfit.collect
    -- What is taken comes from a handle that is there, so it was launched.
    · intro e he
      rcases List.mem_append.mp he with he | he
      · exact h.launched e he
      · rcases List.mem_map.mp he with ⟨result, hresult, rfl⟩
        rw [← hworking.handles]
        refine Nat.lt_of_not_le fun hbeyond => ?_
        rw [List.getElem?_eq_none hbeyond] at hresult
        cases hresult
  | drop ticket =>
    simp only [admitted, handedOut, List.append_nil]
    exact h.touch rfl (List.set_eq_modify ..) (fun t _ => ⟨rfl, rfl⟩) (fun _ _ _ hfit => hfit.drop)
      h.launched
  | close =>
    simp only [admitted, handedOut, List.append_nil]
    exact h.same rfl rfl (fun _ => rfl) rfl
  | refuse job hclosed =>
    simp only [admitted, hclosed, if_true, handedOut, List.append_nil]
    exact h.same rfl rfl (fun _ => rfl) rfl
  | wait worker patience =>
    simp only [admitted, handedOut, List.append_nil]
    exact h.same rfl rfl (fun _ => rfl) rfl
  | rest worker =>
    simp only [admitted, handedOut, List.append_nil]
    exact h.same rfl rfl (fun _ => rfl) rfl

/-- A pool that has just started has no handles. -/
theorem start (size : Nat) (shell : σ) : Answered .empty (Pool.start size shell) where
  fits t job hjob := by cases hjob
  launched e he := absurd he List.not_mem_nil

end Answered

/-- A handle is missing after a step only if it was missing before or is dropped in it. The
    cases follow the moves: most leave the handles alone, three change what one of them holds, a
    launch adds one at the end, and only dropping empties a slot. -/
theorem dropped_step (sh : Shell σ) {p : Pool σ} {step : PoolStep} {t : Nat}
    (h : (p.step sh step).handles[t]? = some none) :
    p.handles[t]? = some none ∨ step = .drop t := by
  have hmove := move_step sh p step
  generalize observed sh p step = events, p.step sh step = next at hmove h
  -- A change of what a handle holds leaves it in its slot.
  have hmodify : ∀ {ticket : Nat} {f : Handle → Handle},
      (p.handles.modify ticket (Option.map f))[t]? = some none → p.handles[t]? = some none := by
    intro ticket f hnone
    rw [List.getElem?_modify, Option.map_eq_map, Option.map_eq_some_iff] at hnone
    rcases hnone with ⟨slot, hslot, hsame⟩
    split at hsame
    · rw [Option.map_eq_none_iff] at hsame
      rw [hslot, hsame]
    · rw [hslot, hsame]
  cases hmove with
  | launch job hopen =>
    rw [List.getElem?_append] at h
    split at h
    · exact Or.inl h
    · rw [List.getElem?_singleton] at h
      split at h
      · cases h
      · cases h
  | send => exact Or.inl (hmodify h)
  | look => exact Or.inl (hmodify h)
  | collect => exact Or.inl (hmodify h)
  | drop ticket =>
    rw [List.getElem?_set] at h
    split at h
    · rename_i heq
      exact Or.inr (heq ▸ rfl)
    · exact Or.inl h
  | _ => exact Or.inl h

/-- A handle is missing only if it was dropped. -/
theorem dropped_run (sh : Shell σ) {p : Pool σ} {steps : List PoolStep} {t : Nat}
    (h : (p.run sh steps).handles[t]? = some none) :
    p.handles[t]? = some none ∨ .drop t ∈ steps := by
  induction steps generalizing p with
  | nil => exact Or.inl h
  | cons step steps ih =>
    rcases ih h with hmissing | hlater
    · rcases dropped_step sh hmissing with hbefore | rfl
      · exact Or.inl hbefore
      · exact Or.inr (List.mem_cons_self ..)
    · exact Or.inr (List.mem_cons_of_mem _ hlater)

end Pool

end AccelMonitor
