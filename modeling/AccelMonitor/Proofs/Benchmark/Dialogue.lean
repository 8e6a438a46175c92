import AccelMonitor.Benchmark.Execution

/-!
# What a Job Says

The dialogue of a script with whatever answers it.

`Script.run` brings a script together with one shell that answers nobody else. A worker
shares its shell with other workers, and between two of its commands the state of the
shell can become anything. So the dialogue is kept apart from the shell here: `Leads` says
what is left of a script after some commands and their answers, wherever the answers came
from.

What a script can end in at all is read off its shape. A job ends in the output under its
own framework, or in the failure of a command that could not be started.

## Main definitions

* `Script.Leads`: What is left of a script after a dialogue.
* `Script.Ends`: The script ends in values of a kind, whatever the answers.
* `Job.Outcome`: The results that a job can end in.

## Theorems

* `Leads.concat`: A dialogue goes on with the next command.
* `leads_transcript`: What a script says to a shell of its own is a dialogue.
* `Ends.of_leads`: The value after a dialogue is of the kind.
* `scriptWith_ends`: Every result of a job is one of its outcomes.
-/

namespace AccelMonitor

namespace Script

variable {α β σ : Type}

/-- A script, a dialogue that it holds, and what is left of it. No shell is mentioned: the
    answers are part of the dialogue, so a fact about scripts holds for every shell. -/
inductive Leads : Script α → List (String × Answer) → Script α → Prop where
  | rest (p : Script α) : Leads p [] p
  | ask {command : String} {next : Answer → Script α} {answer : Answer}
      {dialogue : List (String × Answer)} {left : Script α}
      (h : Leads (next answer) dialogue left) :
      Leads (.ask command next) ((command, answer) :: dialogue) left

/-- A dialogue goes on with the next command, whatever the answer is. -/
theorem Leads.concat {p : Script α} {dialogue : List (String × Answer)} {command : String}
    {next : Answer → Script α} (h : p.Leads dialogue (.ask command next)) (answer : Answer) :
    p.Leads (dialogue ++ [(command, answer)]) (next answer) := by
  generalize hleft : Script.ask command next = left at h
  induction h with
  | rest p =>
    rw [← hleft]
    exact .ask (.rest _)
  | ask _ ih => exact .ask (ih hleft)

/-- What a script says to a shell of its own, up to its value. -/
theorem leads_transcript (shell : Shell σ) (p : Script α) (s : σ) :
    p.Leads (p.transcript shell s) (.done (p.run shell s).1) := by
  induction p generalizing s with
  | done a => exact .rest _
  | ask command next ih => exact .ask (ih _ _)

/-- Whatever the answers are, the script ends in a value of a kind. -/
def Ends (P : α → Prop) : Script α → Prop
  | done a => P a
  | ask _ next => ∀ answer, (next answer).Ends P

theorem Ends.of_leads {P : α → Prop} {p : Script α} (hp : p.Ends P)
    {dialogue : List (String × Answer)} {a : α} (h : p.Leads dialogue (.done a)) : P a := by
  generalize hleft : Script.done a = left at h
  induction h with
  | rest p =>
    rw [← hleft] at hp
    exact hp
  | ask _ ih => exact ih (hp _) hleft

theorem Ends.bind {P : α → Prop} {Q : β → Prop} {p : Script α} (hp : p.Ends P)
    {f : α → Script β} (hf : ∀ a, P a → (f a).Ends Q) : (p.bind f).Ends Q := by
  induction p with
  | done a => exact hf a hp
  | ask command next ih => exact fun answer => ih answer (hp answer)

end Script

namespace Attempt

variable {ε α β : Type}

/-- The attempt fails only in ways of a kind. -/
def Fails (E : ε → Prop) (p : Attempt ε α) : Prop :=
  p.script.Ends fun r => ∀ e, r = .error e → E e

theorem fails_lines {E : ε → Prop} {failure : SpawnFailure → ε} (h : ∀ f, E (failure f))
    (command : String) : (lines failure command).Fails E := by
  rintro (f | output) e he
  · cases he
    exact h f
  · cases he

theorem fails_pure (E : ε → Prop) (a : α) : (pure a : Attempt ε α).Fails E := by
  rintro e he
  cases he

/-- What an attempt ends in when another one goes before it. -/
theorem ends_bind {E : ε → Prop} {Q : Except ε β → Prop} {p : Attempt ε α} (hp : p.Fails E)
    {f : α → Attempt ε β} (hf : ∀ a, (f a).script.Ends Q) (hE : ∀ e, E e → Q (.error e)) :
    (p >>= f).script.Ends Q :=
  Script.Ends.bind hp fun r hr => by
    cases r with
    | ok a => exact hf a
    | error e => exact hE e (hr e rfl)

theorem fails_bind {E : ε → Prop} {p : Attempt ε α} (hp : p.Fails E) {f : α → Attempt ε β}
    (hf : ∀ a, (f a).Fails E) : (p >>= f).Fails E :=
  ends_bind hp hf fun _ he _ heq => Except.error.inj heq ▸ he

end Attempt

/-- The failure is that of a command that could not be started. -/
def ExecutionFailure.IsSpawn (e : ExecutionFailure) : Prop :=
  ∃ f, e = .spawn f

namespace Job

/-- The results that a job can end in. -/
def Outcome (job : Job) : JobResult → Prop
  | .ok output => output.framework = job.framework
  | .error e => e.IsSpawn

/-- No job ends in the failure of a pool that went away. -/
theorem Outcome.ne_poolClosed {job : Job} {r : JobResult} (h : job.Outcome r) :
    r ≠ .error .poolClosed := by
  rintro rfl
  rcases h with ⟨f, hf⟩
  cases hf

theorem fails_collect (commands : List String) :
    (collect commands).Fails ExecutionFailure.IsSpawn := by
  induction commands with
  | nil => exact Attempt.fails_pure _ _
  | cons command rest ih =>
    rw [collect]
    refine Attempt.fails_bind (Attempt.fails_lines (fun f => ⟨f, rfl⟩) command) fun _ => ?_
    exact Attempt.fails_bind ih fun _ => Attempt.fails_pure _ _

theorem fails_awaitSign (command sign : String) (patience : Nat) :
    (awaitSign command sign patience).Fails ExecutionFailure.IsSpawn := by
  have hlines : (Attempt.lines ExecutionFailure.spawn command).Fails ExecutionFailure.IsSpawn :=
    Attempt.fails_lines (fun f => ⟨f, rfl⟩) command
  induction patience with
  | zero => exact Attempt.fails_bind hlines fun _ => Attempt.fails_pure _ _
  | succ n ih =>
    rw [awaitSign]
    refine Attempt.fails_bind hlines fun output => ?_
    split
    · exact Attempt.fails_pure _ _
    · exact ih

theorem fails_await (patience : Nat) (endSign : Option EndSign) :
    (await patience endSign).Fails ExecutionFailure.IsSpawn := by
  cases endSign with
  | none => exact Attempt.fails_pure _ _
  | some w => exact fails_awaitSign w.command w.sign patience

/-- A job ends in output under its framework, or in the failure of a command. -/
theorem scriptWith_ends (job : Job) (patience : Nat) :
    (job.scriptWith patience).script.Ends job.Outcome := by
  have hfailed : ∀ e : ExecutionFailure, e.IsSpawn → job.Outcome (.error e) := fun _ he => he
  refine Attempt.ends_bind (fails_collect job.run) (fun raw => ?_) hfailed
  refine Attempt.ends_bind (fails_await patience job.endSign) (fun _ => ?_) hfailed
  dsimp only
  split
  · exact Attempt.ends_bind (Attempt.fails_pure _ raw) (fun _ => rfl) hfailed
  · exact Attempt.ends_bind (fails_collect job.report) (fun _ => rfl) hfailed

end Job

end AccelMonitor
