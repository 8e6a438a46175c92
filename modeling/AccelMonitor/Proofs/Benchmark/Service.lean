import AccelMonitor.Proofs.Benchmark.Turns

/-!
# What a Pool Can Be Relied On For

Every launched job is executed once, and its result goes to the handle of its launch.

Here the invariants of a pool are put together. At any time, every job that was launched
before the line was closed has been taken, in order, or waits in the line; what the workers
did is the executions of the jobs that were taken, each by one worker, and each along the
script of its own job with the answers of the shared shell; and every handle is what it has
to be by the result of its own launch. When all workers have left, every execution is over,
so every handle that has not given its result away gives it.

What the foreground does with handles makes no difference to the work at all: a run without
those steps is the same but for the handles. And if the workers get their turns, every
launch is answered, and a pool that was closed is deserted in the end.

## Main definitions

* `Pool.Sound`: All invariants together.
* `Pool.SameWork`: Two pools that differ in their handles at most.
* `Pool.Served`: What holds of a pool at any time.
* `Pool.Reliable`: What a pool can be relied on for.

## Theorems

* `sound_run`: Every run keeps the invariants.
* `SameWork.step`, `SameWork.run`: What is done with handles does not change the work.
* `served_run`: What holds after any run.
* `finish_eq_run`: Finishing everything at once is a run like any other.
* `jobs_served`: Everything together.
-/

namespace AccelMonitor

/-- The commands that an execution has asked. -/
def Execution.commands (e : Execution) : List String :=
  e.dialogue.map Prod.fst

/-- Something is done with a handle. -/
def PoolStep.isTouch : PoolStep → Bool
  | .look _ | .collect _ | .drop _ => true
  | .launch _ | .take _ _ | .work _ | .close => false

theorem commands_filterMap (events : List WorkEvent) :
    (events.filterMap WorkEvent.asked?).map Asked.command
      = (events.filterMap WorkEvent.exchange?).map Prod.fst := by
  rw [List.map_filterMap, List.map_filterMap]
  refine List.filterMap_congr fun event _ => ?_
  cases event with
  | _ => rfl

namespace Pool

variable {σ : Type} {sh : Shell σ} {s : σ} {c : Chronicle} {p q : Pool σ}

/-- All invariants of a pool. -/
structure Sound (sh : Shell σ) (s : σ) (c : Chronicle) (p : Pool σ) : Prop where
  working : Working c p
  heard : Heard sh s c p
  answered : Answered c p
  serial : p.workers.length = 1 → Serial c.events

theorem Sound.step (h : Sound sh s c p) (step : PoolStep) :
    Sound sh s (record sh p step c) (p.step sh step) where
  working := h.working.step sh step
  heard := h.heard.step step
  answered := h.answered.step h.working sh step
  serial hone := by
    rw [length_workers_step] at hone
    exact (h.serial hone).step h.working hone sh step

theorem sound_run (sh : Shell σ) (size : Nat) (s : σ) (steps : List PoolStep) :
    Sound sh s ((start size s).chronicle sh steps .empty) ((start size s).run sh steps) := by
  refine invariant_run (fun c p step h => h.step step) ?_ steps
  exact
    { working := .start size s
      heard := ⟨.start, rfl⟩
      answered := .start size s
      serial := fun _ => ⟨rfl, fun t e he => by cases he⟩ }

/-- The pools differ in their handles at most, and not in how many there are. Looking at a
    handle, taking its result and dropping it are the steps that only the handles can tell. -/
structure SameWork (p q : Pool σ) : Prop where
  line : p.line = q.line
  workers : p.workers = q.workers
  handles : p.handles.length = q.handles.length
  closed : p.closed = q.closed
  shell : p.shell = q.shell
  asked : p.asked = q.asked

namespace SameWork

/-- Neither what a worker does nor what is launched depends on handles. The pools may hold
    different things in the slots of their handles, or have dropped some, but they have as many
    slots, since the number of the next launch is counted from these. -/
theorem step (h : SameWork p q) (sh : Shell σ) (step : PoolStep) :
    SameWork (p.step sh step) (q.step sh step) ∧ observed sh p step = observed sh q step ∧
      admitted p step = admitted q step := by
  -- The two pools are the same but for what is in the slots of their handles.
  rcases p with ⟨line, workers, handles, closed, shell, asked⟩
  rcases q with ⟨line', workers', handles', closed', shell', asked'⟩
  rcases h with ⟨rfl, rfl, hhandles, rfl, rfl, rfl⟩
  dsimp only at hhandles
  cases step with
  | launch job =>
    simp only [Pool.step, observed, admitted, and_true]
    split
    · exact ⟨rfl, rfl, hhandles, rfl, rfl, rfl⟩
    · refine ⟨?_, rfl, ?_, rfl, rfl, rfl⟩
      · rw [hhandles]
      · rw [List.length_append, List.length_append, hhandles]
  | take worker patience =>
    simp only [Pool.step, observed, admitted, and_true]
    split
    · exact ⟨rfl, rfl, hhandles, rfl, rfl, rfl⟩
    · split
      · exact ⟨rfl, rfl, hhandles, rfl, rfl, rfl⟩
      · exact ⟨rfl, rfl, hhandles, rfl, rfl, rfl⟩
    · exact ⟨rfl, rfl, hhandles, rfl, rfl, rfl⟩
  | work worker =>
    simp only [Pool.step, observed, admitted, and_true]
    split
    · rename_i ticket left _
      cases left with
      | done result =>
        refine ⟨rfl, rfl, ?_, rfl, rfl, rfl⟩
        exact (List.length_modify ..).trans (hhandles.trans (List.length_modify ..).symm)
      | ask command next => exact ⟨rfl, rfl, hhandles, rfl, rfl, rfl⟩
    · exact ⟨rfl, rfl, hhandles, rfl, rfl, rfl⟩
  -- What is done with a handle keeps the number of slots on both sides.
  | look ticket =>
    refine ⟨⟨rfl, rfl, ?_, rfl, rfl, rfl⟩, rfl, rfl⟩
    exact (List.length_modify ..).trans (hhandles.trans (List.length_modify ..).symm)
  | collect ticket =>
    refine ⟨⟨rfl, rfl, ?_, rfl, rfl, rfl⟩, rfl, rfl⟩
    exact (List.length_modify ..).trans (hhandles.trans (List.length_modify ..).symm)
  | drop ticket =>
    refine ⟨⟨rfl, rfl, ?_, rfl, rfl, rfl⟩, rfl, rfl⟩
    exact (List.length_set ..).trans (hhandles.trans (List.length_set ..).symm)
  | close => exact ⟨⟨rfl, rfl, hhandles, rfl, rfl, rfl⟩, rfl, rfl⟩

/-- What is done with a handle is no work: it asks nothing, and it moves neither a worker nor the
    line. -/
theorem touch (h : SameWork p q) (sh : Shell σ) {step : PoolStep} (ht : step.isTouch = true) :
    SameWork (p.step sh step) q ∧ observed sh p step = [] ∧ admitted p step = [] := by
  cases step with
  | look ticket =>
    exact ⟨⟨h.line, h.workers, (List.length_modify ..).trans h.handles, h.closed, h.shell, h.asked⟩,
      rfl, rfl⟩
  | collect ticket =>
    exact ⟨⟨h.line, h.workers, (List.length_modify ..).trans h.handles, h.closed, h.shell, h.asked⟩,
      rfl, rfl⟩
  | drop ticket =>
    exact ⟨⟨h.line, h.workers, (List.length_set ..).trans h.handles, h.closed, h.shell, h.asked⟩,
      rfl, rfl⟩
  | launch | take | work | close => cases ht

/-- A run without what is done with handles does the same work: the workers, the line and the
    shell do not depend on who looks at a handle, waits for it or drops it. -/
theorem run (h : SameWork p q) (sh : Shell σ) (steps : List PoolStep) {c d : Chronicle}
    (hjobs : c.jobs = d.jobs) (hevents : c.events = d.events) :
    let kept := steps.filter fun step => !step.isTouch
    SameWork (p.run sh steps) (q.run sh kept) ∧
      (p.chronicle sh steps c).jobs = (q.chronicle sh kept d).jobs ∧
      (p.chronicle sh steps c).events = (q.chronicle sh kept d).events := by
  induction steps generalizing p q c d with
  | nil => exact ⟨h, hjobs, hevents⟩
  | cons step steps ih =>
    dsimp only at ih ⊢
    cases ht : step.isTouch with
    -- A step that touches a handle is left out on the other side.
    | true =>
      rcases h.touch sh ht with ⟨hsame, hobserved, hadmitted⟩
      rw [List.filter_cons_of_neg (by rw [ht]; exact Bool.false_ne_true)]
      refine ih hsame ?_ ?_
      · rw [record, hadmitted, List.append_nil, hjobs]
      · rw [record, hobserved, List.append_nil, hevents]
    | false =>
      rcases h.step sh step with ⟨hsame, hobserved, hadmitted⟩
      rw [List.filter_cons_of_pos (by rw [ht]; rfl)]
      refine ih hsame ?_ ?_
      · rw [record, record, hadmitted, hjobs]
      · rw [record, record, hobserved, hevents]

end SameWork

/-- What holds of a pool that was started with a size and ran some steps. -/
structure Served (sh : Shell σ) (size : Nat) (s : σ) (steps : List PoolStep) (c : Chronicle)
    (p : Pool σ) : Prop where
  /-- There are as many workers as there should be, and always one. -/
  workers : p.workers.length = max size 1
  jobs : c.jobs = PoolStep.launches steps
  /-- What was launched has been taken or is in the line, in order. -/
  taken : (executions c.events).map Execution.job ++ p.line.map Prod.snd = c.jobs
  /-- What was done for a launch is its execution, once and by one worker. -/
  once : ∀ t, (c.events.filter fun event => event.ticket = t)
    = (executions c.events)[t]?.elim [] (Execution.events t)
  /-- An execution follows the script of its job, in the hands of its worker or to the end. -/
  stands : ∀ (t : Nat) (e : Execution), (executions c.events)[t]? = some e → e.Stands p.workers t
  outcome : ∀ (t : Nat) (result : JobResult), c.answer? t = some result →
    ∃ job, c.jobs[t]? = some job ∧ job.Outcome result
  /-- The answers are those of the shell, in the order in which it was asked. -/
  answers : sh.Gives s (c.events.filterMap WorkEvent.exchange?) p.shell
  asked : p.asked = c.events.filterMap WorkEvent.asked?
  /-- A handle that was not dropped is what its own result makes of it. -/
  handles : ∀ (t : Nat) (job : Job), c.jobs[t]? = some job →
    ∃ slot, p.handles[t]? = some slot ∧ (slot = none → .drop t ∈ steps) ∧
      Handle.Fits job.framework (c.answer? t) (c.takenFrom t) slot
  /-- One worker asks the commands of one job after those of the other. -/
  serial : size ≤ 1 → p.commands = (executions c.events).flatMap Execution.commands
  /-- When the workers have left, everything was executed and can be asked for. -/
  deserted : p.isDeserted = true → p.line = [] ∧
    ∀ (t : Nat) (job : Job), c.jobs[t]? = some job →
      ∃ e result, (executions c.events)[t]? = some e ∧ e.job = job ∧ e.result = some result ∧
        e.script.Leads e.dialogue (.done result) ∧ job.Outcome result ∧
        result ≠ .error .poolClosed ∧
        ∀ handle, p.handles[t]? = some (some handle) →
          handle.framework = job.framework ∧ (handle.stage ≠ .taken → handle.wait = some result)

/-- The job of an execution is that of its launch. -/
theorem Working.job (h : Working c p) {t : Nat} {e : Execution}
    (he : (executions c.events)[t]? = some e) : c.jobs[t]? = some e.job := by
  rw [← h.launched, List.getElem?_append_left, List.getElem?_map, he]
  · rfl
  · rw [List.length_map]
    exact (List.getElem?_eq_some_iff.mp he).1

/-- A result that was sent is the end of the script of an execution. -/
theorem Working.answer (h : Working c p) {t : Nat} {result : JobResult}
    (hanswer : c.answer? t = some result) :
    ∃ e, (executions c.events)[t]? = some e ∧ e.result = some result ∧
      e.script.Leads e.dialogue (.done result) ∧ e.job.Outcome result := by
  rcases Option.bind_eq_some_iff.mp hanswer with ⟨e, he, hresult⟩
  cases h.workers.stands t e he with
  | running left hnone _ _ =>
    rw [hresult] at hnone
    cases hnone
  | ended result' hresult' hleads =>
    rw [hresult] at hresult'
    cases hresult'
    exact ⟨e, he, hresult, hleads, (Job.scriptWith_ends e.job e.patience).of_leads hleads⟩

/-- When the workers have left, every launch has been answered. The first to leave found the line
    empty, so every job was taken, and an execution without a result would keep its worker busy. -/
theorem Working.answered_of_deserted (h : Working c p) (hsome : p.workers ≠ [])
    (hdeserted : p.isDeserted = true) :
    p.line = [] ∧ ∀ (t : Nat) (job : Job), c.jobs[t]? = some job → c.answer? t ≠ none := by
  have hgone : ∀ w ∈ p.workers, w = .gone := by
    intro w hw
    have hleft := List.all_eq_true.mp hdeserted w hw
    cases w with
    | gone => rfl
    | idle => cases hleft
    | busy t left => cases hleft
  have hline : p.line = [] := by
    rcases List.exists_mem_of_ne_nil _ hsome with ⟨w, hw⟩
    exact (h.gone (hgone w hw ▸ hw)).2
  refine ⟨hline, fun t job hjob => ?_⟩
  have hcount := h.count
  rw [hline, List.length_nil, Nat.add_zero] at hcount
  have ht : t < (executions c.events).length := by
    rw [hcount]
    exact (List.getElem?_eq_some_iff.mp hjob).1
  have he := List.getElem?_eq_getElem ht
  cases h.workers.stands t _ he with
  | running left _ hworker _ => cases hgone _ (List.mem_of_getElem? hworker)
  | ended result hresult _ =>
    rw [Chronicle.answer?, he, Option.bind_some, hresult]
    exact Option.some_ne_none result

theorem length_workers_run (sh : Shell σ) (p : Pool σ) (steps : List PoolStep) :
    (p.run sh steps).workers.length = p.workers.length := by
  induction steps generalizing p with
  | nil => rfl
  | cons step steps ih => exact (ih (p.step sh step)).trans (length_workers_step sh p step)

/-- What is promised of a run holds of every run: the invariants of all steps, read together.
    None of them mentions the turns of the workers, so this part needs no fairness. -/
theorem served_run (sh : Shell σ) (size : Nat) (s : σ) (steps : List PoolStep) :
    Served sh size s steps ((start size s).chronicle sh steps .empty)
      ((start size s).run sh steps) := by
  have h := sound_run sh size s steps
  -- The four kinds of invariants of a run, stated of one chronicle and one pool.
  have hworkers : ((start size s).run sh steps).workers.length = max size 1 :=
    (length_workers_run sh _ steps).trans List.length_replicate
  have hjobs : ((start size s).chronicle sh steps .empty).jobs = PoolStep.launches steps :=
    jobs_chronicle sh (start size s) steps .empty
  have hdropped : ∀ t, ((start size s).run sh steps).handles[t]? = some none → .drop t ∈ steps :=
    fun t hnone => (dropped_run sh hnone).resolve_left fun hstart => by cases hstart
  generalize (start size s).chronicle sh steps .empty = c, (start size s).run sh steps = p
    at h hworkers hjobs hdropped
  refine
    { workers := hworkers
      jobs := hjobs
      taken := h.working.launched
      once := h.working.workers.events
      stands := h.working.workers.stands
      outcome := fun t result hanswer => ?_
      answers := h.heard.answers
      asked := h.heard.asked
      handles := fun t job hjob => ?_
      serial := fun hsize => ?_
      deserted := fun hdeserted => ?_ }
  · rcases h.working.answer hanswer with ⟨e, he, _, _, houtcome⟩
    exact ⟨e.job, h.working.job he, houtcome⟩
  · rcases h.answered.fits t job hjob with ⟨slot, hslot, hfits⟩
    exact ⟨slot, hslot, fun hnone => hdropped t (hnone ▸ hslot), hfits⟩
  -- With a single worker, the commands follow the executions.
  · have hserial := h.serial (by rw [hworkers]; omega)
    rw [commands, h.heard.asked, commands_filterMap, hserial.dialogue, List.map_flatMap]
    rfl
  -- When all workers are gone, there was at least one, which found the line empty.
  · have hsome : p.workers ≠ [] := List.length_pos_iff.mp (by rw [hworkers]; omega)
    rcases h.working.answered_of_deserted hsome hdeserted with ⟨hline, hall⟩
    refine ⟨hline, fun t job hjob => ?_⟩
    rcases Option.ne_none_iff_exists'.mp (hall t job hjob) with ⟨result, hanswer⟩
    rcases h.working.answer hanswer with ⟨e, he, hresult, hleads, houtcome⟩
    have hown : e.job = job := Option.some.inj ((h.working.job he).symm.trans hjob)
    rw [hown] at houtcome
    refine ⟨e, result, he, hown, hresult, hleads, houtcome, houtcome.ne_poolClosed, ?_⟩
    -- A handle that is still there gives what its launch was answered.
    intro handle hhandle
    rcases h.answered.fits t job hjob with ⟨slot, hslot, hfits⟩
    rw [hslot] at hhandle
    rw [Option.some.inj hhandle, hanswer] at hfits
    exact hfits.wait

theorem run_append (sh : Shell σ) (p : Pool σ) (front back : List PoolStep) :
    p.run sh (front ++ back) = (p.run sh front).run sh back :=
  List.foldl_append ..

theorem chronicle_append (sh : Shell σ) (p : Pool σ) (front back : List PoolStep) (c : Chronicle) :
    p.chronicle sh (front ++ back) c
      = (p.run sh front).chronicle sh back (p.chronicle sh front c) := by
  induction front generalizing p c with
  | nil => rfl
  | cons step front ih => exact ih (p.step sh step) (record sh p step c)

/-- A line that is closed in a run is closed after it. -/
theorem closed_run (sh : Shell σ) {steps : List PoolStep} (hclose : .close ∈ steps)
    (p : Pool σ) : (p.run sh steps).closed = true := by
  rcases List.append_of_mem hclose with ⟨front, back, rfl⟩
  rw [run_append]
  generalize p.run sh front = q
  have hkept : ∀ steps (q : Pool σ), q.closed = true → (q.run sh steps).closed = true := by
    intro steps
    induction steps with
    | nil => exact fun q hq => hq
    | cons step steps ih => exact fun q hq => ih (q.step sh step) (closed_step sh hq step).1
  exact hkept back { q with closed := true } rfl

/-- Performing all of a job is a run in which its worker moves, one step for each question of the
    script and one for the result. -/
theorem workOff_eq_run (sh : Shell σ) (worker ticket : Nat) (left : Script JobResult)
    {p : Pool σ} (h : p.workers[worker]? = some (.busy ticket left)) :
    ∃ steps, workOff sh worker ticket left p = p.run sh steps := by
  have hstep : ∀ (left : Script JobResult) (p : Pool σ),
      p.workers[worker]? = some (.busy ticket left) →
      p.step sh (.work worker) = work sh p worker ticket left := by
    intro left p h
    simp only [Pool.step, h]
  induction left generalizing p with
  | done result => exact ⟨[.work worker], (hstep _ p h).symm⟩
  | ask command next ih =>
    have hnext : (work sh p worker ticket (.ask command next)).workers[worker]?
        = some (.busy ticket (next (sh.answer command p.shell).1)) :=
      List.getElem?_set_self (List.getElem?_eq_some_iff.mp h).1
    rcases ih _ hnext with ⟨steps, hsteps⟩
    refine ⟨.work worker :: steps, hsteps.trans ?_⟩
    rw [← hstep _ p h]
    rfl

/-- Taking jobs and performing them until none is left is a run of the first worker. -/
theorem drain_eq_run (sh : Shell σ) (n : Nat) (p : Pool σ) :
    ∃ steps, drain sh n p = p.run sh steps := by
  induction n generalizing p with
  | zero => exact ⟨[], rfl⟩
  | succ n ih =>
    rw [drain]
    split
    · rename_i ticket left hbusy
      rw [List.head?_eq_getElem?] at hbusy
      rcases workOff_eq_run sh 0 ticket left hbusy with ⟨job, hjob⟩
      rcases ih (workOff sh 0 ticket left (p.step sh (.take 0 p.nextPatience))) with ⟨rest, hrest⟩
      refine ⟨.take 0 p.nextPatience :: (job ++ rest), ?_⟩
      rw [hrest, hjob, ← run_append]
      rfl
    · exact ⟨[.take 0 p.nextPatience], rfl⟩

theorem takeAll_eq_run (sh : Shell σ) (p : Pool σ) : ∃ steps, takeAll sh p = p.run sh steps := by
  rw [takeAll]
  induction List.range p.workers.length generalizing p with
  | nil => exact ⟨[], rfl⟩
  | cons worker workers ih =>
    rcases ih (p.step sh (.take worker p.nextPatience)) with ⟨steps, hsteps⟩
    exact ⟨.take worker p.nextPatience :: steps, hsteps⟩

/-- Finishing everything at once is a run like any other. -/
theorem finish_eq_run (sh : Shell σ) (p : Pool σ) :
    ∃ steps, finish sh p = p.run sh (.close :: steps) := by
  rcases drain_eq_run sh p.line.length (p.step sh .close) with ⟨jobs, hjobs⟩
  rcases takeAll_eq_run sh (drain sh p.line.length (p.step sh .close)) with ⟨rest, hrest⟩
  refine ⟨jobs ++ rest, ?_⟩
  rw [finish, hrest, hjobs, ← run_append]
  rfl

/-- The first steps of an infinite schedule, as a run. -/
theorem unfolds (sh : Shell σ) (h : Working c p) (schedule : Nat → PoolStep) :
    Unfolds sh schedule (fun n => p.run sh ((List.range n).map schedule))
      (fun n => p.chronicle sh ((List.range n).map schedule) c) where
  pool_succ n := by
    rw [List.range_succ, List.map_append, run_append]
    rfl
  chronicle_succ n := by
    rw [List.range_succ, List.map_append, chronicle_append]
    rfl
  working n := invariant_run (fun _ _ step h => h.step sh step) h _

/-- What a pool of a size can be relied on for, whatever the shell is. -/
structure Reliable (sh : Shell σ) (size : Nat) (s : σ) : Prop where
  served : ∀ steps, Served sh size s steps ((start size s).chronicle sh steps .empty)
    ((start size s).run sh steps)
  /-- What is done with handles does not change the work. -/
  untouched : ∀ steps : List PoolStep,
    let kept := steps.filter fun step => !step.isTouch
    SameWork ((start size s).run sh steps) ((start size s).run sh kept) ∧
      ((start size s).chronicle sh steps .empty).events
        = ((start size s).chronicle sh kept .empty).events
  /-- Every launch is answered if the workers get their turns. -/
  answered : ∀ schedule, Fair schedule (max size 1) →
    ∀ n t, t < (PoolStep.launches ((List.range n).map schedule)).length →
      ∃ m, n ≤ m ∧
        ((start size s).chronicle sh ((List.range m).map schedule) .empty).answer? t ≠ none
  /-- Every worker leaves then, once the line was closed. -/
  deserted : ∀ schedule, Fair schedule (max size 1) →
    ∀ n, .close ∈ (List.range n).map schedule →
      ∃ m, n ≤ m ∧ ((start size s).run sh ((List.range m).map schedule)).isDeserted = true
  /-- Turns of the workers are all that it takes, whatever happened before. -/
  returns : ∀ steps, .close ∈ steps →
    ∃ n, ((start size s).run sh
      (steps ++ (List.range n).map (roundRobin (max size 1)))).isDeserted = true

/-- Every launched job is executed once, by one worker and along its own script, and its
    result goes to its own handle. What is done with handles makes no difference to that,
    and neither does a job that fails. A single worker asks the commands of one job after
    those of the other. If the workers get their turns, every launch is answered, and after
    closing they all leave; then the line is empty, and every handle that has not given its
    result away gives the outcome of its job, which is not that of a pool that went away. -/
theorem jobs_served (sh : Shell σ) (size : Nat) (s : σ) : Reliable sh size s := by
  have hlength : ∀ p : Pool σ, p.workers.length = max size 1 → 0 < p.workers.length := by
    intro p hp
    omega
  have hstart : (start size s).workers.length = max size 1 := List.length_replicate
  refine
    { served := served_run sh size s
      untouched := fun steps => ?_
      answered := fun schedule hfair n t ht => ?_
      deserted := fun schedule hfair n hclose => ?_
      returns := fun steps hclose => ?_ }
  -- Both runs start with the same pool, so they do the same work.
  · have hsame : SameWork (start size s) (start size s) := ⟨rfl, rfl, rfl, rfl, rfl, rfl⟩
    rcases hsame.run sh steps (c := .empty) (d := .empty) rfl rfl with ⟨hwork, _, hevents⟩
    exact ⟨hwork, hevents⟩
  · refine (unfolds sh (.start size s) schedule).answered (hstart ▸ hfair) (hlength _ hstart) ?_
    rw [jobs_chronicle]
    exact ht
  · exact (unfolds sh (.start size s) schedule).deserted (hstart ▸ hfair) (hlength _ hstart)
      (closed_run sh hclose _)
  -- Whatever was done before, turns all around let the workers leave.
  · have hworkers : ((start size s).run sh steps).workers.length = max size 1 :=
      (length_workers_run sh _ steps).trans hstart
    have hfair : Fair (roundRobin (max size 1)) ((start size s).run sh steps).workers.length := by
      rw [hworkers]
      exact fair_roundRobin _
    rcases (unfolds sh (sound_run sh size s steps).working (roundRobin (max size 1))).deserted
      hfair (hlength _ hworkers) (n := 0) (closed_run sh hclose _) with ⟨n, _, hdeserted⟩
    exact ⟨n, by rw [run_append]; exact hdeserted⟩

end Pool

end AccelMonitor
