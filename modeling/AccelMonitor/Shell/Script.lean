import AccelMonitor.Failure

/-!
# Scripts

What to ask a shell, and what to do with its answers.

Everything the program learns about a device is the output of a command. A
script is the part of the program that asks: either it is done, or it names one
command and goes on according to the answer. It performs nothing. A `Shell`
answers one command at a time from a state of its own, and `Script.run` brings
the two together.

Keeping the asking apart from the answering has two uses. A script can be run
against any shell at all — a device, a recording, one that fails at the worst
moment — and several scripts that share a shell can be run in turns, one command
at a time, which is what concurrent workers do.

## Main definitions

* `Answer`: The output lines of a command, or why it could not be started.
* `Script`: A dialogue with a shell, ending in a value.
* `Shell`: Something that answers commands from a state.
* `Script.run`: The value a script ends in, and the shell's state after it.
* `Script.transcript`: The commands asked, with their answers.

## Theorems

* `run_bind`: Running one script after another.
* `transcript_bind`: The transcript of one script after another.
-/

namespace AccelMonitor

/-- The output lines of a command, or why it could not be started. -/
abbrev Answer := Except SpawnFailure (List String)

/-- A dialogue with a shell that ends in a value. -/
inductive Script (α : Type) where
  /-- Nothing is left to ask. -/
  | done (value : α)
  /-- One command, and how to go on with its answer. -/
  | ask (command : String) (next : Answer → Script α)

/-- Something that answers commands from a state of its own. -/
structure Shell (σ : Type) where
  /-- The answer to a command, and the state after it. -/
  answer : String → σ → Answer × σ

namespace Script

variable {α β σ : Type}

/-- A script followed by one that depends on its value. -/
def bind : Script α → (α → Script β) → Script β
  | done a, f => f a
  | ask command next, f => ask command fun a => (next a).bind f

instance : Monad Script where
  pure := done
  bind := bind

/-- The value a script ends in, and the shell's state after it. -/
def run (shell : Shell σ) : Script α → σ → α × σ
  | done a, s => (a, s)
  | ask command next, s =>
    let (a, s') := shell.answer command s
    (next a).run shell s'

/-- The commands a script asks, with their answers. -/
def transcript (shell : Shell σ) : Script α → σ → List (String × Answer)
  | done _, _ => []
  | ask command next, s =>
    let (a, s') := shell.answer command s
    (command, a) :: (next a).transcript shell s'

/-- The commands a script asks. -/
def commands (shell : Shell σ) (p : Script α) (s : σ) : List String :=
  (p.transcript shell s).map Prod.fst

/-- Running one script after another. -/
theorem run_bind (shell : Shell σ) (p : Script α) (f : α → Script β) (s : σ) :
    (p.bind f).run shell s = (f (p.run shell s).1).run shell (p.run shell s).2 := by
  induction p generalizing s with
  | done a => rfl
  | ask command next ih => exact ih _ _

/-- The transcript of one script after another. -/
theorem transcript_bind (shell : Shell σ) (p : Script α) (f : α → Script β) (s : σ) :
    (p.bind f).transcript shell s
      = p.transcript shell s ++ (f (p.run shell s).1).transcript shell (p.run shell s).2 := by
  induction p generalizing s with
  | done a => rfl
  | ask command next ih =>
    exact congrArg ((command, (shell.answer command s).1) :: ·) (ih _ _)

end Script

/-- A script that may end in a failure of type `ε`. -/
abbrev Attempt (ε α : Type) := ExceptT ε Script α

namespace Attempt

/-- The output of a command. A command that cannot be started is a failure. -/
def lines {ε : Type} (failure : SpawnFailure → ε) (command : String) : Attempt ε (List String) :=
  ExceptT.mk (.ask command fun a => .done (a.mapError failure))

/-- The script of an attempt, which ends in its outcome. -/
def script {ε α : Type} (p : Attempt ε α) : Script (Except ε α) :=
  p.run

/-- What an attempt ends in, and the shell's state after it. -/
def perform {ε α σ : Type} (shell : Shell σ) (p : Attempt ε α) (s : σ) : Except ε α × σ :=
  p.script.run shell s

end Attempt

end AccelMonitor
