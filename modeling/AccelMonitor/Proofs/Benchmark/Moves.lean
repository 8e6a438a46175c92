import AccelMonitor.Proofs.Benchmark.Executions

/-!
# The Moves of a Pool

What the jobs of a pool have in common with what was launched, whatever the schedule.

`Move` says once what a step can do, and a chronicle keeps what has happened: the jobs
that were launched, what the workers did, and the results that were taken. `Working` says
how the executions in it stand to the pool. The launches are what was taken and what is
still in the line, in order, and a worker leaves only when the line is closed and empty.
`Heard` says that the answers in it are those that the shell gave, in this order. A worker
that is alone ends one job before it takes the next, which is what `Serial` says: then the
shell was asked the commands of one job after those of the other.

## Main definitions

* `Chronicle`, `Pool.chronicle`: What has happened in a run.
* `Pool.Move`: What a step does, by what the state allows.
* `Shell.Gives`: The answers of a shell to commands in a row.
* `Pool.Working`, `Pool.Heard`, `Pool.Serial`: The invariants.

## Theorems

* `invariant_run`: What every step keeps, every run keeps.
* `move_step`: Every step is a move.
* `Working.step`, `Heard.step`, `Serial.step`: Every step keeps the invariants.
* `jobs_chronicle`: The jobs of a run are those that are launched before the line is closed.
-/

namespace AccelMonitor

/-- What has happened in a run. -/
structure Chronicle where
  /-- The jobs that were launched, in order. -/
  jobs : List Job
  /-- What the workers have done. -/
  events : List WorkEvent
  /-- The results that the foreground has taken, with the numbers of their launches. -/
  handed : List (Nat × JobResult)

/-- Nothing has happened. -/
def Chronicle.empty : Chronicle :=
  ⟨[], [], []⟩

/-- The shell was asked some commands in a row, and gave these answers. -/
inductive Shell.Gives {σ : Type} (sh : Shell σ) (s : σ) : List (String × Answer) → σ → Prop where
  | start : Gives sh s [] s
  | answer {dialogue : List (String × Answer)} {t : σ} (h : Gives sh s dialogue t)
      (command : String) :
      Gives sh s (dialogue ++ [(command, (sh.answer command t).1)]) (sh.answer command t).2

/-- The jobs that are launched in some steps. After the line was closed there are none. -/
def PoolStep.launches : List PoolStep → List Job
  | [] => []
  | .launch job :: steps => job :: launches steps
  | .close :: _ => []
  | _ :: steps => launches steps

namespace Pool

variable {σ : Type}

/-- What a worker does in a step. -/
def observed (sh : Shell σ) (p : Pool σ) : PoolStep → List WorkEvent
  | .take worker patience =>
    match p.workers[worker]?, p.line with
    | some .idle, (ticket, job) :: _ => [.taken worker ticket job patience]
    | _, _ => []
  | .work worker =>
    match p.workers[worker]? with
    | some (.busy ticket (.ask command _)) =>
      [.asked worker ticket command (sh.answer command p.shell).1]
    | some (.busy ticket (.done result)) => [.sent worker ticket result]
    | _ => []
  | _ => []

/-- The jobs that are launched in a step. -/
def admitted (p : Pool σ) : PoolStep → List Job
  | .launch job => if p.closed then [] else [job]
  | _ => []

/-- The result that the foreground takes in a step, with the number of the launch. -/
def handedOut (p : Pool σ) : PoolStep → List (Nat × JobResult)
  | .collect ticket =>
    (p.handles[ticket]?.join.bind fun h => h.take?.1).toList.map fun result => (ticket, result)
  | _ => []

/-- The chronicle with one more step. -/
def record (sh : Shell σ) (p : Pool σ) (step : PoolStep) (c : Chronicle) : Chronicle :=
  { jobs := c.jobs ++ admitted p step
    events := c.events ++ observed sh p step
    handed := c.handed ++ handedOut p step }

/-- The chronicle with some more steps. -/
def chronicle (sh : Shell σ) (p : Pool σ) : List PoolStep → Chronicle → Chronicle
  | [], c => c
  | step :: steps, c => chronicle sh (p.step sh step) steps (record sh p step c)

/-- What every step keeps, every run keeps. -/
theorem invariant_run {sh : Shell σ} {I : Chronicle → Pool σ → Prop}
    (hstep : ∀ c p step, I c p → I (record sh p step c) (p.step sh step)) {c : Chronicle}
    {p : Pool σ} (h : I c p) (steps : List PoolStep) :
    I (p.chronicle sh steps c) (p.run sh steps) := by
  induction steps generalizing c p with
  | nil => exact h
  | cons step steps ih => exact ih (hstep c p step h)

/-- What a step does, by what the state allows, and what a worker does in it. There is one case
    for each way in which a step can go, and the last three change nothing. Their hypotheses are
    left out where no proof has to know why nothing happened. -/
inductive Move (sh : Shell σ) (p : Pool σ) : PoolStep → List WorkEvent → Pool σ → Prop where
  | launch (job : Job) (hopen : p.closed = false) :
      Move sh p (.launch job) []
        { p with
          line := p.line ++ [(p.handles.length, job)]
          handles := p.handles ++ [some (.fresh job.framework)] }
  | take (worker patience ticket : Nat) (job : Job) (rest : List (Nat × Job))
      (hworker : p.workers[worker]? = some .idle) (hline : p.line = (ticket, job) :: rest) :
      Move sh p (.take worker patience) [.taken worker ticket job patience]
        { p with
          line := rest
          workers := p.workers.set worker (.busy ticket (job.scriptWith patience).script) }
  | leave (worker patience : Nat) (hworker : p.workers[worker]? = some .idle)
      (hline : p.line = []) (hclosed : p.closed = true) :
      Move sh p (.take worker patience) [] { p with workers := p.workers.set worker .gone }
  | ask (worker ticket : Nat) (command : String) (next : Answer → Script JobResult)
      (hworker : p.workers[worker]? = some (.busy ticket (.ask command next))) :
      Move sh p (.work worker) [.asked worker ticket command (sh.answer command p.shell).1]
        { p with
          shell := (sh.answer command p.shell).2
          asked := p.asked ++ [⟨ticket, command⟩]
          workers := p.workers.set worker (.busy ticket (next (sh.answer command p.shell).1)) }
  | send (worker ticket : Nat) (result : JobResult)
      (hworker : p.workers[worker]? = some (.busy ticket (.done result))) :
      Move sh p (.work worker) [.sent worker ticket result]
        { p with
          workers := p.workers.set worker .idle
          handles := p.handles.modify ticket (Option.map (·.deliver result)) }
  | look (ticket : Nat) :
      Move sh p (.look ticket) []
        { p with handles := p.handles.modify ticket (Option.map fun h => h.hasResult.2) }
  | collect (ticket : Nat) :
      Move sh p (.collect ticket) []
        { p with handles := p.handles.modify ticket (Option.map fun h => h.take?.2) }
  | drop (ticket : Nat) :
      Move sh p (.drop ticket) [] { p with handles := p.handles.set ticket none }
  | close : Move sh p .close [] { p with closed := true }
  /-- No job can be launched any more. -/
  | refuse (job : Job) (hclosed : p.closed = true) : Move sh p (.launch job) [] p
  /-- There is nothing to take, or the worker does not look for a job. -/
  | wait (worker patience : Nat) : Move sh p (.take worker patience) [] p
  /-- The worker has no job. -/
  | rest (worker : Nat) : Move sh p (.work worker) [] p

/-- Every step is a move. The program looks at the line, at the worker whose turn it is and at
    how far that worker's script is, and the cases here are those of the program. All invariants
    below go through this lemma, so that each of them speaks of what a move changes and none of
    them unfolds a step. -/
theorem move_step (sh : Shell σ) (p : Pool σ) (step : PoolStep) :
    p.Move sh step (observed sh p step) (p.step sh step) := by
  cases step with
  | launch job =>
    simp only [observed, Pool.step]
    -- A closed line refuses the job.
    split
    · rename_i hclosed
      exact .refuse job hclosed
    · rename_i hopen
      exact .launch job (Bool.eq_false_iff.mpr hopen)
  | take worker patience =>
    cases hworker : p.workers[worker]? with
    | none =>
      simp only [observed, Pool.step, hworker]
      exact .wait worker patience
    | some w =>
      cases w with
      -- Only a worker without a job looks into the line, and it leaves an empty one that is
      -- closed.
      | idle =>
        cases hline : p.line with
        | nil =>
          simp only [observed, Pool.step, hworker, hline]
          split
          · rename_i hclosed
            have hleave : p.Move sh _ _ _ := .leave worker patience hworker hline hclosed
            rwa [hline] at hleave
          · exact .wait worker patience
        | cons entry rest =>
          simp only [observed, Pool.step, hworker, hline]
          exact .take worker patience entry.1 entry.2 rest hworker hline
      | busy ticket left =>
        simp only [observed, Pool.step, hworker]
        exact .wait worker patience
      | gone =>
        simp only [observed, Pool.step, hworker]
        exact .wait worker patience
  | work worker =>
    cases hworker : p.workers[worker]? with
    | none =>
      simp only [observed, Pool.step, hworker]
      exact .rest worker
    | some w =>
      cases w with
      | idle =>
        simp only [observed, Pool.step, hworker]
        exact .rest worker
      | busy ticket left =>
        -- The turn of a worker that is at a job is the next step of its script.
        cases left with
        | done result =>
          simp only [observed, Pool.step, hworker]
          exact .send worker ticket result hworker
        | ask command next =>
          simp only [observed, Pool.step, hworker]
          exact .ask worker ticket command next hworker
      | gone =>
        simp only [observed, Pool.step, hworker]
        exact .rest worker
  -- What the foreground does with a handle is possible in every state.
  | look ticket => exact .look ticket
  | collect ticket => exact .collect ticket
  | drop ticket => exact .drop ticket
  | close => exact .close

/-- How the executions of a run stand to the pool. The number of a launch is its place among all
    launches, and executions begin in that order, so the same number leads to the job, its
    execution and its handle. -/
structure Working (c : Chronicle) (p : Pool σ) : Prop where
  /-- What was launched has been taken or is in the line, in order. -/
  launched : (executions c.events).map Execution.job ++ p.line.map Prod.snd = c.jobs
  tickets : p.line.map Prod.fst = List.range' (executions c.events).length p.line.length
  handles : p.handles.length = c.jobs.length
  workers : Matches c.events p.workers
  /-- A worker leaves only when nothing can come any more. -/
  gone : .gone ∈ p.workers → p.closed = true ∧ p.line = []

namespace Working

variable {c : Chronicle} {p : Pool σ}

/-- The launches that have not been taken are in the line. -/
theorem count (h : Working c p) :
    (executions c.events).length + p.line.length = c.jobs.length := by
  rw [← h.launched, List.length_append, List.length_map, List.length_map]

/-- A worker goes on with its execution, or ends it. In both cases no job is taken and none is
    launched, and the worker does not leave. -/
theorem goOn (h : Working c p) {event : WorkEvent} {worker : Nat} {next : Worker}
    (hold : ∀ worker t job patience, event ≠ .taken worker t job patience)
    (hnext : next ≠ .gone) (hworkers : Matches (c.events ++ [event]) (p.workers.set worker next))
    {handles : List (Option Handle)} (hhandles : handles.length = p.handles.length) (shell : σ)
    (asked : List Asked) (handed : List (Nat × JobResult)) :
    Working ⟨c.jobs, c.events ++ [event], handed⟩
      { p with workers := p.workers.set worker next, handles, shell, asked } := by
  have hjobs := map_job_recordEvent hold (executions c.events)
  rw [← executions_concat] at hjobs
  have hcount := congrArg List.length hjobs
  rw [List.length_map, List.length_map] at hcount
  refine ⟨?_, ?_, hhandles.trans h.handles, hworkers, fun hgone => ?_⟩
  · rw [hjobs]
    exact h.launched
  · rw [hcount]
    exact h.tickets
  · exact h.gone ((List.mem_or_eq_of_mem_set hgone).resolve_right hnext.symm)

/-- Something is done with the handles. -/
theorem touch (h : Working c p) {handles : List (Option Handle)}
    (hhandles : handles.length = p.handles.length) (handed : List (Nat × JobResult)) :
    Working { c with handed } { p with handles } :=
  ⟨h.launched, h.tickets, hhandles.trans h.handles, h.workers, h.gone⟩

/-- Every step keeps the account between executions and launches. Taking a job is where it
    matters: the job leaves the front of the line for the end of the executions, so the two
    lists together stay the launches in order, and the ticket in front is the number of the
    execution that begins. The other moves change one execution in place, or none. -/
theorem step (h : Working c p) (sh : Shell σ) (step : PoolStep) :
    Working (record sh p step c) (p.step sh step) := by
  have hmove := move_step sh p step
  rw [record]
  generalize observed sh p step = events, p.step sh step = next at hmove
  cases hmove with
  | launch job hopen =>
    -- The new job goes to the end of the line, under the number of the new handle.
    rw [List.append_nil, admitted, if_neg (by rw [hopen]; exact Bool.false_ne_true)]
    refine ⟨?_, ?_, ?_, h.workers, fun hgone => ?_⟩
    · rw [List.map_append, ← List.append_assoc, h.launched]
      rfl
    · rw [List.map_append, h.tickets, List.length_append, List.length_singleton,
        List.range'_1_concat, h.count, h.handles]
      rfl
    · rw [List.length_append, List.length_append, h.handles]
      rfl
    -- Nobody has left yet, since that needs a closed line.
    · have hclosed := (h.gone hgone).1
      rw [hopen] at hclosed
      cases hclosed
  | take worker patience ticket job rest hworker hline =>
    -- The ticket in front is the number of the execution that begins.
    have htickets := h.tickets
    rw [hline, List.map_cons, List.length_cons, List.range'_succ, List.cons.injEq] at htickets
    rcases htickets with ⟨rfl, htickets⟩
    simp only [admitted, List.append_nil]
    -- The job moves from the line to the executions, so their order together stays.
    refine ⟨?_, ?_, h.handles, h.workers.take hworker job patience, fun hgone => ?_⟩
    · rw [executions_concat, recordEvent, List.map_append, List.append_assoc, ← h.launched, hline]
      rfl
    · rw [executions_concat, recordEvent, List.length_append]
      exact htickets
    · -- A worker that has left found the line empty.
      rcases List.mem_or_eq_of_mem_set hgone with hgone | hgone
      · have hempty := (h.gone hgone).2
        rw [hline] at hempty
        cases hempty
      · cases hgone
  | leave worker patience hworker hline hclosed =>
    simp only [admitted, List.append_nil]
    exact ⟨h.launched, h.tickets, h.handles, h.workers.leave hworker, fun _ => ⟨hclosed, hline⟩⟩
  | ask worker ticket command next hworker =>
    simp only [admitted, List.append_nil]
    exact h.goOn (by rintro w t j n ⟨⟩) (by rintro ⟨⟩) (h.workers.ask hworker _) rfl _ _ _
  | send worker ticket result hworker =>
    simp only [admitted, List.append_nil]
    exact h.goOn (by rintro w t j n ⟨⟩) (by rintro ⟨⟩) (h.workers.send hworker)
      (List.length_modify ..) _ _ _
  -- What the foreground does leaves the workers and the line alone.
  | look ticket =>
    simp only [admitted, List.append_nil]
    exact h.touch (List.length_modify ..) _
  | collect ticket =>
    simp only [admitted, List.append_nil]
    exact h.touch (List.length_modify ..) _
  | drop ticket =>
    simp only [admitted, List.append_nil]
    exact h.touch (List.length_set ..) _
  | close =>
    simp only [admitted, List.append_nil]
    exact ⟨h.launched, h.tickets, h.handles, h.workers, fun hgone => ⟨rfl, (h.gone hgone).2⟩⟩
  | refuse job hclosed =>
    rw [admitted, if_pos hclosed, List.append_nil, List.append_nil]
    exact h.touch rfl _
  | wait worker patience =>
    simp only [admitted, List.append_nil]
    exact h.touch rfl _
  | rest worker =>
    simp only [admitted, List.append_nil]
    exact h.touch rfl _

/-- A pool that has just started. -/
theorem start (size : Nat) (shell : σ) : Working .empty (Pool.start size shell) where
  launched := rfl
  tickets := rfl
  handles := rfl
  workers :=
    { events := fun t => rfl
      stands := fun t e he => by cases he
      busy := fun worker t left hbusy => by
        cases List.eq_of_mem_replicate (List.mem_of_getElem? hbusy) }
  gone hgone := by
    cases List.eq_of_mem_replicate hgone

end Working

theorem launches_cons (sh : Shell σ) (p : Pool σ) (step : PoolStep) (steps : List PoolStep) :
    (if p.closed then [] else PoolStep.launches (step :: steps))
      = admitted p step
        ++ if (p.step sh step).closed then [] else PoolStep.launches steps := by
  have hmove := move_step sh p step
  generalize observed sh p step = events, p.step sh step = next at hmove
  cases hmove with
  | launch job hopen =>
    simp only [hopen, Bool.false_eq_true, if_false, PoolStep.launches, admitted,
      List.singleton_append]
  | close => simp only [PoolStep.launches, ite_self, admitted, if_true, List.append_nil]
  | refuse job hclosed => simp only [hclosed, if_true, admitted, List.append_nil]
  | _ => rfl

/-- The jobs of a run are those that are launched before the line is closed. -/
theorem jobs_chronicle (sh : Shell σ) (p : Pool σ) (steps : List PoolStep) (c : Chronicle) :
    (p.chronicle sh steps c).jobs
      = c.jobs ++ if p.closed then [] else PoolStep.launches steps := by
  induction steps generalizing p c with
  | nil =>
    rw [chronicle, PoolStep.launches, ite_self, List.append_nil]
  | cons step steps ih =>
    rw [chronicle, ih, launches_cons sh, ← List.append_assoc]
    rfl

theorem length_workers_step (sh : Shell σ) (p : Pool σ) (step : PoolStep) :
    (p.step sh step).workers.length = p.workers.length := by
  have hmove := move_step sh p step
  generalize observed sh p step = events, p.step sh step = next at hmove
  cases hmove with
  | take => exact List.length_set ..
  | leave => exact List.length_set ..
  | ask => exact List.length_set ..
  | send => exact List.length_set ..
  | _ => rfl

/-- The events say what the shell was asked, in order, and what it answered. -/
structure Heard (sh : Shell σ) (s : σ) (c : Chronicle) (p : Pool σ) : Prop where
  answers : sh.Gives s (c.events.filterMap WorkEvent.exchange?) p.shell
  asked : p.asked = c.events.filterMap WorkEvent.asked?

/-- Only a question is put to the shell, and it is recorded with its answer. All other steps leave
    the shell alone and record nothing that was asked. -/
theorem Heard.step {sh : Shell σ} {s : σ} {c : Chronicle} {p : Pool σ} (h : Heard sh s c p)
    (step : PoolStep) : Heard sh s (record sh p step c) (p.step sh step) := by
  have hmove := move_step sh p step
  rw [record]
  generalize observed sh p step = events, p.step sh step = next at hmove
  have hsilent : ∀ {events : List WorkEvent} {next : Pool σ}, next.shell = p.shell →
      next.asked = p.asked → events.filterMap WorkEvent.exchange? = [] →
      events.filterMap WorkEvent.asked? = [] →
      Heard sh s ⟨c.jobs ++ admitted p step, c.events ++ events, c.handed ++ handedOut p step⟩
        next := by
    intro events next hshell hsame hexchange hasked
    refine ⟨?_, ?_⟩
    · rw [List.filterMap_append, hexchange, List.append_nil, hshell]
      exact h.answers
    · rw [List.filterMap_append, hasked, List.append_nil, hsame]
      exact h.asked
  cases hmove with
  | ask worker ticket command next hworker =>
    refine ⟨?_, ?_⟩
    · rw [List.filterMap_append]
      exact h.answers.answer command
    · rw [List.filterMap_append, ← h.asked]
      rfl
  | _ => exact hsilent rfl rfl rfl rfl

/-- The jobs are executed one after the other. -/
structure Serial (history : List WorkEvent) : Prop where
  dialogue : history.filterMap WorkEvent.exchange?
    = (executions history).flatMap Execution.dialogue
  /-- Only the execution that was begun last can still go on. -/
  last : ∀ (t : Nat) (e : Execution), (executions history)[t]? = some e → e.result = none →
    t + 1 = (executions history).length

namespace Serial

variable {c : Chronicle} {p : Pool σ}

/-- A change of the last value changes the end of what all of them give. -/
theorem flatMap_modify_last {α β : Type} {l : List α} {n : Nat} (hlast : n + 1 = l.length) {a : α}
    (ha : l[n]? = some a) {f : α → α} {g : α → List β} {more : List β}
    (hf : g (f a) = g a ++ more) : (l.modify n f).flatMap g = l.flatMap g ++ more := by
  induction l generalizing n with
  | nil => cases ha
  | cons b l ih =>
    cases n with
    | zero =>
      have hnil : l = [] := List.length_eq_zero_iff.mp (Nat.succ.inj hlast).symm
      have hb : b = a := Option.some.inj ha
      rw [hnil, hb, List.modify_zero_cons, List.flatMap_singleton, List.flatMap_singleton, hf]
    | succ n =>
      rw [List.modify_succ_cons, List.flatMap_cons, List.flatMap_cons,
        ih (Nat.succ.inj hlast) ha, List.append_assoc]

variable {history : List WorkEvent}

/-- Something happens to the execution that was begun last. It is the only one without a result,
    so what is added to its dialogue is added at the end of all dialogues. -/
theorem modify (h : Serial history) {event : WorkEvent} {ticket : Nat} {e : Execution}
    {f : Execution → Execution} (he : (executions history)[ticket]? = some e)
    (hresult : e.result = none)
    (hrecord : recordEvent (executions history) event = (executions history).modify ticket f)
    (hdialogue : (f e).dialogue = e.dialogue ++ event.exchange?.toList)
    (hkept : ∀ e, (f e).result = none → e.result = none) : Serial (history ++ [event]) := by
  have hlast := h.last ticket e he hresult
  refine ⟨?_, fun t e' he' hresult' => ?_⟩
  · rw [executions_concat, hrecord, flatMap_modify_last hlast he hdialogue, ← h.dialogue,
      List.filterMap_append]
    cases hexchange : event.exchange? with
    | none => rw [List.filterMap_cons_none hexchange]; rfl
    | some x => rw [List.filterMap_cons_some hexchange]; rfl
  · rw [executions_concat, hrecord, List.getElem?_modify, Option.map_eq_map,
      Option.map_eq_some_iff] at he'
    rw [executions_concat, hrecord, List.length_modify]
    rcases he' with ⟨old, hold, rfl⟩
    refine h.last t old hold ?_
    split at hresult'
    · exact hkept old hresult'
    · exact hresult'

/-- With a single worker, every step keeps the commands in the order of the executions. A worker
    that takes a job is idle, so no execution is running by then, and what is asked later
    belongs to the last one. -/
theorem step {c : Chronicle} {p : Pool σ} (h : Serial c.events) (hworking : Working c p)
    (hone : p.workers.length = 1) (sh : Shell σ) (step : PoolStep) :
    Serial (record sh p step c).events := by
  have hmove := move_step sh p step
  rw [record]
  generalize observed sh p step = events, p.step sh step = next at hmove
  cases hmove with
  | take worker patience ticket job rest hworker hline =>
    -- A new execution comes last, behind executions that are all over.
    refine ⟨?_, fun t e he hresult => ?_⟩
    · rw [List.filterMap_append, executions_concat, recordEvent, List.flatMap_append, ← h.dialogue]
      rfl
    · rw [executions_concat, recordEvent, List.getElem?_append] at he
      rw [executions_concat, recordEvent, List.length_append, List.length_singleton]
      split at he
      · -- An execution that is not over keeps its worker busy, but the only one is not.
        cases hworking.workers.stands t e he with
        | running left _ hbusy _ =>
          have hworker' := (List.getElem?_eq_some_iff.mp hworker).1
          have hbusy' := (List.getElem?_eq_some_iff.mp hbusy).1
          rw [show e.worker = worker by omega, hworker] at hbusy
          cases hbusy
        | ended result hended _ =>
          rw [hresult] at hended
          cases hended
      · have hfirst := (List.getElem?_eq_some_iff.mp he).1
        rw [List.length_singleton] at hfirst
        omega
  -- A command belongs to the one execution that is running, which is the last one.
  | ask worker ticket command next hworker =>
    rcases hworking.workers.current hworker with ⟨e, he, _, hresult, _⟩
    exact h.modify he hresult rfl rfl fun _ => id
  | send worker ticket result hworker =>
    rcases hworking.workers.current hworker with ⟨e, he, _, hresult, _⟩
    exact h.modify he hresult rfl (List.append_nil _).symm fun _ hended => by cases hended
  | _ =>
    dsimp only
    rw [List.append_nil]
    exact h

end Serial

end Pool

end AccelMonitor
