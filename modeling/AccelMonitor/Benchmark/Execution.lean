import AccelMonitor.Benchmark.Job

/-!
# Running a Job

A job as a dialogue with a shell.

The commands of a phase run in order, and the first one that cannot be started
ends the job with its failure. Waiting repeats the waiting command until its
output holds the text that is waited for, or until it has been repeated so often
that the time is up, which is no failure. The result is the output of the last
commands if there are any, and that of the run otherwise.

How often a command can be repeated before the time is up depends on a clock
that a script does not have, so the number is given. `patience` is that number
when a command takes no time beside the interval: it runs at once and after each
interval, up to the first time that is not before the timeout. Without an
interval nothing but the commands themselves takes time, a thousandth of a
millisecond each.

## Main definitions

* `JobOutput`, `JobResult`: What a job ends in.
* `Job.collect`: The commands of a phase.
* `Job.awaitSign`: The waiting.
* `Job.scriptWith`: The whole job, with a given patience.
* `EndSign.patience`, `Job.patience`: How often the waiting command runs at most.
* `Job.script`: The whole job, with that patience.
-/

namespace AccelMonitor

/-- What a finished job printed. -/
structure JobOutput where
  framework : Framework
  lines : List String
deriving DecidableEq

/-- What a job ends in. -/
abbrev JobResult := Except ExecutionFailure JobOutput

/-- How often a command is repeated in a millisecond if there is no pause between. -/
def repeatsPerMillisecond : Nat :=
  1000

/-- How often the waiting command is repeated at most after its first run. -/
def EndSign.patience (w : EndSign) : Nat :=
  if w.interval = 0 then w.timeout * repeatsPerMillisecond
  else (w.timeout + w.interval - 1) / w.interval

namespace Job

/-- The output of all commands, in order. The first command that cannot be started ends the
    whole, and what the others printed before it is lost. -/
def collect : List String → Attempt ExecutionFailure (List String)
  | [] => pure []
  | command :: rest => do
    let lines ← Attempt.lines .spawn command
    let more ← collect rest
    return lines ++ more

/-- Some line holds the text. -/
def showsSign (sign : String) (lines : List String) : Bool :=
  lines.any (Text.holds sign)

/-- Runs a command until its output holds a text, repeating it so many times at most. Running
    out of repetitions is not a failure: the benchmark counts as ended, and its report may be
    incomplete. -/
def awaitSign (command sign : String) : Nat → Attempt ExecutionFailure Unit
  | 0 => do
    -- The time is up after this run, whether the text shows or not.
    let _ ← Attempt.lines .spawn command
    return ()
  | n + 1 => do
    let lines ← Attempt.lines .spawn command
    if showsSign sign lines then return () else awaitSign command sign n

/-- The waiting of a job that may have none. -/
def await (patience : Nat) : Option EndSign → Attempt ExecutionFailure Unit
  | none => pure ()
  | some w => awaitSign w.command w.sign patience

/-- The whole job, with a given number of repetitions of its waiting command. -/
def scriptWith (patience : Nat) (job : Job) : Attempt ExecutionFailure JobOutput := do
  let raw ← collect job.run
  await patience job.endSign
  let lines ← if job.report = [] then pure raw else collect job.report
  return ⟨job.framework, lines⟩

/-- The number of repetitions when commands take no time. -/
def patience (job : Job) : Nat :=
  (job.endSign.map EndSign.patience).getD 0

/-- The whole job, when commands take no time. -/
def script (job : Job) : Script JobResult :=
  (scriptWith job.patience job).script

end Job

end AccelMonitor
