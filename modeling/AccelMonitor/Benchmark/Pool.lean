import AccelMonitor.Benchmark.Handle

/-!
# The Worker Pool

Several workers that run jobs in the background.

Launched jobs wait in one line. A worker that is free takes the first job of the
line and performs it, one command at a time; when the job has ended, its result
goes to the handle of the launch, and to no other. A handle that the foreground
has dropped has no one to read the result, which changes nothing for the worker.
Closing the pool ends the line: the workers go on until the line is empty and
then leave.

The pool is a transition system. `PoolStep` names what can happen next — a
launch, one step of one worker, something done with a handle, closing — and
`Pool.step` is what it does; a step that is not possible changes nothing. A run
is any list of steps, which is how an arbitrary interleaving is written down.
The workers share one shell, whose state is part of the pool's. How often a job
repeats its waiting command depends on a clock, so the number comes with the step
in which the job is taken.

## Main definitions

* `Pool`: The state of a pool.
* `PoolStep`, `Pool.step`, `Pool.run`: What can happen, and what it does.
* `Pool.finish`: A run in which the pool closes and everything is completed.
* `Pool.isDeserted`: Every worker has left.
-/

namespace AccelMonitor

/-- What a worker does. -/
inductive Worker where
  /-- It has no job. -/
  | idle
  /-- It performs the rest of the job of a launch. -/
  | busy (ticket : Nat) (rest : Script JobResult)
  /-- It has left. -/
  | gone

/-- A command as it was asked for, with the launch whose job asked. -/
structure Asked where
  /-- The number of the launch. -/
  ticket : Nat
  command : String
deriving DecidableEq

/-- The state of a pool whose workers share a shell. A job is known by the number of its launch,
    which is also the place of its handle, so results find their handles whichever worker has
    them. -/
structure Pool (σ : Type) where
  /-- The jobs that no worker has taken yet, with the numbers of their launches. -/
  line : List (Nat × Job)
  workers : List Worker
  /-- The handles, by the number of the launch; `none` once dropped. -/
  handles : List (Option Handle)
  /-- No more jobs can be launched. -/
  closed : Bool
  shell : σ
  /-- The commands so far, oldest first. -/
  asked : List Asked

/-- What can happen to a pool, in any order: the foreground and the workers act when they get to
    it, and a step that the state does not allow changes nothing. -/
inductive PoolStep where
  | launch (job : Job)
  /-- A worker takes the first job of the line, which will repeat its waiting command so
      often at most, or leaves if none can come. -/
  | take (worker patience : Nat)
  /-- A worker asks the next command of its job, or sends the job's result. -/
  | work (worker : Nat)
  /-- The foreground asks whether a job is ready. -/
  | look (ticket : Nat)
  /-- The foreground takes a result. -/
  | collect (ticket : Nat)
  /-- The foreground drops a handle. -/
  | drop (ticket : Nat)
  /-- The line is closed. -/
  | close

namespace Pool

variable {σ : Type}

/-- A pool of some workers, of which there is always one. -/
def start (size : Nat) (shell : σ) : Pool σ :=
  { line := [], workers := List.replicate (max size 1) .idle, handles := [], closed := false
    shell, asked := [] }

/-- Changes the handle of a launch, if it is still held. -/
def updateHandle (p : Pool σ) (ticket : Nat) (f : Handle → Handle) : Pool σ :=
  { p with handles := p.handles.modify ticket (Option.map f) }

/-- The pool after a worker's next command, or after it has sent its result. -/
def work (sh : Shell σ) (p : Pool σ) (worker ticket : Nat) : Script JobResult → Pool σ
  | .done result =>
    { p with workers := p.workers.set worker .idle }.updateHandle ticket (·.deliver result)
  | .ask command next =>
    let (answer, shell) := sh.answer command p.shell
    { p with
      shell
      asked := p.asked ++ [⟨ticket, command⟩]
      workers := p.workers.set worker (.busy ticket (next answer)) }

/-- The pool after a step. -/
def step (sh : Shell σ) (p : Pool σ) : PoolStep → Pool σ
  | .launch job =>
    if p.closed then p
    else { p with
      line := p.line ++ [(p.handles.length, job)]
      handles := p.handles ++ [some (.fresh job.framework)] }
  | .take worker patience =>
    match p.workers[worker]?, p.line with
    | some .idle, (ticket, job) :: rest =>
      { p with
        line := rest
        workers := p.workers.set worker (.busy ticket (job.scriptWith patience).script) }
    -- Nothing can come any more once the line is closed and empty.
    | some .idle, [] => if p.closed then { p with workers := p.workers.set worker .gone } else p
    | _, _ => p
  | .work worker =>
    match p.workers[worker]? with
    | some (.busy ticket rest) => work sh p worker ticket rest
    | _ => p
  | .look ticket => p.updateHandle ticket fun h => h.hasResult.2
  | .collect ticket => p.updateHandle ticket fun h => h.take?.2
  | .drop ticket => { p with handles := p.handles.set ticket none }
  | .close => { p with closed := true }

/-- The pool after some steps. -/
def run (sh : Shell σ) (p : Pool σ) (steps : List PoolStep) : Pool σ :=
  steps.foldl (step sh) p

/-- The pool after one worker has performed all of its job. -/
def workOff (sh : Shell σ) (worker ticket : Nat) : Script JobResult → Pool σ → Pool σ
  | .done result, p => work sh p worker ticket (.done result)
  | .ask command next, p =>
    workOff sh worker ticket (next (sh.answer command p.shell).1)
      (work sh p worker ticket (.ask command next))

/-- The patience of the first job of the line, when commands take no time. -/
def nextPatience (p : Pool σ) : Nat :=
  (p.line.head?.map fun e => e.2.patience).getD 0

/-- The pool after its first worker has performed so many jobs of the line. -/
def drain (sh : Shell σ) : Nat → Pool σ → Pool σ
  | 0, p => p
  | n + 1, p =>
    let p' := step sh p (.take 0 p.nextPatience)
    match p'.workers.head? with
    | some (.busy ticket rest) => drain sh n (workOff sh 0 ticket rest p')
    | _ => p'

/-- The pool after every worker without a job has looked for one. -/
def takeAll (sh : Shell σ) (p : Pool σ) : Pool σ :=
  (List.range p.workers.length).foldl (fun p w => step sh p (.take w p.nextPatience)) p

/-- The pool after it was closed, all launched jobs were performed in the order of their
    launches, and the workers have left. -/
def finish (sh : Shell σ) (p : Pool σ) : Pool σ :=
  takeAll sh (drain sh p.line.length (step sh p .close))

/-- Every worker has left. -/
def isDeserted (p : Pool σ) : Bool :=
  p.workers.all fun w =>
    match w with
    | .gone => true
    | .idle | .busy _ _ => false

/-- The commands so far, oldest first. -/
def commands (p : Pool σ) : List String :=
  p.asked.map Asked.command

end Pool

end AccelMonitor
