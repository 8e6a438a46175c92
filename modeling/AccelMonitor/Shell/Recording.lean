import AccelMonitor.Shell.Script
import AccelMonitor.Text.Pieces

/-!
# Recorded Answers

A shell that answers from a recording.

A recording is a list of rules. A rule is recognised by how a command begins and
holds the responses to such commands in the order in which they are to be given.
Each answer uses one response up, except that the last one stays and is repeated;
if more responses are added later, the repeated one is used up like any other.
When several rules fit a command, the one with the longest beginning answers and
the others are left alone. A command that no rule fits has empty output.

Every command is remembered, answered or not.

## Main definitions

* `Response`: What a rule answers with.
* `Rule`: A beginning and the responses to commands with that beginning.
* `Recording`: The rules and the commands so far.
* `Recording.push`: Adds a response.
* `Recording.reply`: Answers a command.
* `Recording.shell`: The recording as a shell.

## Theorems

* `reply_history`: Every command is remembered, in order.
-/

namespace AccelMonitor

/-- What a rule answers with. -/
inductive Response where
  | output (lines : List String)
  /-- The command cannot be started. -/
  | spawnFailure
deriving DecidableEq

/-- The answer a response gives to a command. -/
def Response.answer (command : String) : Response → Answer
  | output lines => .ok lines
  | spawnFailure => .error ⟨command, "replayed spawn failure"⟩

/-- A beginning of commands and the responses to them. There is always one. -/
structure Rule where
  /-- How the commands begin. -/
  opening : String
  /-- The response to the next of them. -/
  current : Response
  /-- The responses after it. -/
  later : List Response
deriving DecidableEq

namespace Rule

/-- The rule after an answer. The last response stays. -/
def advance (r : Rule) : Rule :=
  match r.later with
  | [] => r
  | next :: rest => { r with current := next, later := rest }

/-- The rule with one more response after the others. -/
def add (r : Rule) (response : Response) : Rule :=
  { r with later := r.later ++ [response] }

/-- The rule fits the command. -/
def fits (command : String) (r : Rule) : Bool :=
  Text.startsWith r.opening command

end Rule

/-- A recording and the commands it was asked. -/
structure Recording where
  /-- The rules, no two with one beginning. -/
  rules : List Rule
  /-- The commands so far, oldest first. -/
  history : List String
deriving DecidableEq

namespace Recording

/-- A recording without rules. -/
def empty : Recording :=
  ⟨[], []⟩

/-- Adds a response to the rule of a beginning, or starts such a rule. -/
def addResponse (opening : String) (response : Response) : List Rule → List Rule
  | [] => [⟨opening, response, []⟩]
  | r :: rs =>
    if r.opening = opening then r.add response :: rs else r :: addResponse opening response rs

/-- Adds a response to commands of a beginning, after those already there. -/
def push (s : Recording) (opening : String) (response : Response) : Recording :=
  { s with rules := addResponse opening response s.rules }

/-- The rule that answers a command: of those that fit, the one with the longest
    beginning. -/
def ruleFor (command : String) : List Rule → Option Rule
  | [] => none
  | r :: rs =>
    match ruleFor command rs with
    | none => if r.fits command then some r else none
    | some best =>
      -- Two beginnings of one command differ in length or are the same.
      if r.fits command && best.opening.length < r.opening.length then some r else some best

/-- Uses up one response of the rule of a beginning. -/
def advanceRule (opening : String) (rules : List Rule) : List Rule :=
  rules.map fun r => if r.opening = opening then r.advance else r

/-- Answers a command. -/
def reply (command : String) (s : Recording) : Answer × Recording :=
  let history := s.history ++ [command]
  match ruleFor command s.rules with
  | none => (.ok [], ⟨s.rules, history⟩)
  | some r => (r.current.answer command, ⟨advanceRule r.opening s.rules, history⟩)

/-- Every command is remembered, in order. -/
theorem reply_history (command : String) (s : Recording) :
    (s.reply command).2.history = s.history ++ [command] := by
  unfold reply
  split <;> rfl

/-- The recording as a shell. -/
def shell : Shell Recording :=
  ⟨reply⟩

end Recording

end AccelMonitor
