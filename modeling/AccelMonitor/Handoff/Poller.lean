import AccelMonitor.Handoff.Queue

/-!
# Pollers

The hand-off from a background poller to the foreground.

A poller goes round and round: it looks whether it should stop, polls, and
offers what the poll found to a queue. A poll that fails offers nothing and ends
nothing. When the queue has no room for some time, the poller looks again
whether it should stop; if so, it gives the value up and stops, and otherwise it
goes on offering. The foreground takes values out of the queue, one at a time or
all at once, and raises the flag that stops the poller.

All of this is a transition system, so that any interleaving of the two sides is
a list of steps. A step that is not possible changes nothing. What was polled,
what offering came to and what was taken is kept as history.

## Main definitions

* `PollerPhase`: Where in its round the poller is.
* `Handoff`: The state of both sides.
* `PollerStep`, `HandoffStep`: What can happen.
* `Handoff.step`, `Handoff.run`: What it does.
* `Handoff.serve`: A run in which everything polled is taken at once.
-/

namespace AccelMonitor

/-- Where in its round a poller is. It blocks at one point only, in front of a full queue, and
    there it comes back after a while to look whether to stop. -/
inductive PollerPhase (α : Type) where
  /-- About to look whether to stop. -/
  | resting
  | polling
  | offering (value : α)
  /-- Out of patience with a full queue, about to look whether to stop. -/
  | doubting (value : α)
  /-- Gone. -/
  | stopped
deriving DecidableEq

/-- What offering a value came to. -/
structure Offer (α : Type) where
  value : α
  /-- The value went into the queue. -/
  accepted : Bool
deriving DecidableEq

/-- A poller, its queue and the foreground that empties it. The last three fields are histories:
    no step looks at them, and they are there to say what becomes of a value. -/
structure Handoff (α : Type) where
  /-- The queue between the two sides. -/
  queue : Queue α
  /-- Where the poller is. -/
  phase : PollerPhase α
  /-- The flag that stops the poller. -/
  exit : Bool
  /-- The values of all successful polls, oldest first. -/
  polled : List α
  /-- What offering them came to, oldest first. -/
  offers : List (Offer α)
  /-- The values that have left the queue, oldest first. -/
  taken : List α
deriving DecidableEq

/-- What a poller does. -/
inductive PollerStep (α : Type) where
  /-- It looks whether to stop. -/
  | check
  /-- It polls, with or without success. -/
  | poll (outcome : Option α)
  /-- It attempts to put its value into the queue. -/
  | attempt
deriving DecidableEq

/-- What can happen. -/
inductive HandoffStep (α : Type) where
  /-- The poller does something. -/
  | poller (step : PollerStep α)
  /-- The foreground takes the oldest value. -/
  | pop
  /-- The foreground takes all values. -/
  | drain
  /-- The flag is raised. -/
  | raiseExit
deriving DecidableEq

namespace Handoff

variable {α : Type}

/-- A poller that is about to begin, with an empty queue. -/
def start (capacity : Nat) : Handoff α :=
  { queue := .empty capacity, phase := .resting, exit := false, polled := [], offers := []
    taken := [] }

/-- The poller looks whether to stop, at rest or in front of a full queue. If it stops there,
    the value that it holds is given up. This is the one way in which a polled value is lost. -/
def check (h : Handoff α) : Handoff α :=
  match h.phase with
  | .resting => { h with phase := if h.exit then .stopped else .polling }
  | .doubting a =>
    if h.exit then { h with phase := .stopped, offers := h.offers ++ [⟨a, false⟩] }
    else { h with phase := .offering a }
  | _ => h

/-- The poller polls. -/
def poll (h : Handoff α) (outcome : Option α) : Handoff α :=
  match h.phase, outcome with
  | .polling, some a => { h with phase := .offering a, polled := h.polled ++ [a] }
  | .polling, none => { h with phase := .resting }
  | _, _ => h

/-- The poller attempts to put its value into the queue. -/
def attempt (h : Handoff α) : Handoff α :=
  match h.phase with
  | .offering a =>
    match h.queue.push? a with
    -- The value is in, and the next round begins.
    | some queue => { h with queue, phase := .resting, offers := h.offers ++ [⟨a, true⟩] }
    | none => { h with phase := .doubting a }
  | _ => h

/-- The foreground takes the oldest value. -/
def pop (h : Handoff α) : Handoff α :=
  { h with queue := h.queue.pop.2, taken := h.taken ++ h.queue.pop.1.toList }

/-- The foreground takes all values. -/
def drain (h : Handoff α) : Handoff α :=
  { h with queue := h.queue.drain.2, taken := h.taken ++ h.queue.items }

/-- The flag is raised. -/
def raiseExit (h : Handoff α) : Handoff α :=
  { h with exit := true }

/-- The state after the poller did something. -/
def pollerStep (h : Handoff α) : PollerStep α → Handoff α
  | .check => h.check
  | .poll outcome => h.poll outcome
  | .attempt => h.attempt

/-- The state after a step. -/
def step (h : Handoff α) : HandoffStep α → Handoff α
  | .poller s => h.pollerStep s
  | .pop => h.pop
  | .drain => h.drain
  | .raiseExit => h.raiseExit

/-- The state after some steps. -/
def run (h : Handoff α) (steps : List (HandoffStep α)) : Handoff α :=
  steps.foldl step h

/-- The poller is not gone. -/
def isRunning (h : Handoff α) : Bool :=
  match h.phase with
  | .stopped => false
  | _ => true

/-- What a poller does in a round without obstacles. -/
def round (outcome : Option α) : List (PollerStep α) :=
  [.check, .poll outcome, .attempt]

/-- The state after rounds with the given outcomes, each of whose values is taken at
    once. -/
def serve (h : Handoff α) (outcomes : List (Option α)) : Handoff α :=
  outcomes.foldl (fun h o => ((round o).foldl pollerStep h).pop) h

/-- The state after the flag was raised and the poller at rest has seen it. -/
def shutdown (h : Handoff α) : Handoff α :=
  h.raiseExit.check

end Handoff

end AccelMonitor
