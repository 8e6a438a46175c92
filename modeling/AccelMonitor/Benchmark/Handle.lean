import AccelMonitor.Benchmark.Execution

/-!
# Handles

The foreground's hold on a job that runs in the background.

A worker sends the result of a job once, or goes away without one. The handle
learns of it when it is asked: asking whether the job is ready takes the result
in and keeps it, taking it hands it out once, and waiting ends the handle. A
handle whose result was handed out is never ready again.

## Main definitions

* `Mail`: What the worker has sent.
* `Handle`: A framework and the stage that its job is at.
* `Handle.hasResult`, `Handle.take?`, `Handle.wait`: What the foreground can do.
* `Handle.deliver`, `Handle.abandon`: What the worker can do.

## Theorems

* `hasResult_idem`: Asking again changes nothing.
* `take?_twice`: A result is handed out once.
-/

namespace AccelMonitor

/-- What a worker has sent. It sends one message at most, and its going away without one can be
    told from a message that is still to come. -/
inductive Mail where
  /-- Nothing yet. -/
  | awaited
  /-- The result. -/
  | delivered (result : JobResult)
  /-- The worker went away without a result. -/
  | abandoned

/-- What the foreground knows of a job. A result moves from the worker's message to the
    foreground when somebody looks, and is given away once. -/
inductive Stage where
  /-- It has not looked at what the worker sent. -/
  | unread (mail : Mail)
  /-- It has the result and keeps it. -/
  | received (result : JobResult)
  /-- It has handed the result out. -/
  | taken

/-- The foreground's hold on a job. -/
structure Handle where
  framework : Framework
  /-- What is known of the job. -/
  stage : Stage

namespace Handle

/-- A handle on a job that has just been launched. -/
def fresh (framework : Framework) : Handle :=
  ⟨framework, .unread .awaited⟩

/-- The handle after it has looked at what the worker sent. -/
def look (h : Handle) : Handle :=
  match h.stage with
  | .unread (.delivered result) => { h with stage := .received result }
  | .unread .abandoned => { h with stage := .received (.error .poolClosed) }
  | _ => h

/-- Whether there is a result to take, and the handle after looking. -/
def hasResult (h : Handle) : Bool × Handle :=
  let h' := h.look
  match h'.stage with
  | .received _ => (true, h')
  | _ => (false, h')

/-- The result if there is one to take, and the handle after taking it. -/
def take? (h : Handle) : Option JobResult × Handle :=
  let h' := h.look
  match h'.stage with
  | .received result => (some result, { h' with stage := .taken })
  | _ => (none, h')

/-- What waiting ends in; nothing if the worker still has to answer. -/
def wait (h : Handle) : Option JobResult :=
  match h.look.stage with
  | .received result => some result
  -- The result is gone, as if the worker had left without one.
  | .taken => some (.error .poolClosed)
  | .unread _ => none

/-- The handle after the worker sent a result. -/
def deliver (h : Handle) (result : JobResult) : Handle :=
  match h.stage with
  | .unread .awaited => { h with stage := .unread (.delivered result) }
  | _ => h

/-- The handle after the worker went away. -/
def abandon (h : Handle) : Handle :=
  match h.stage with
  | .unread .awaited => { h with stage := .unread .abandoned }
  | _ => h

/-- Looking again finds nothing more. -/
theorem look_look (h : Handle) : h.look.look = h.look := by
  obtain ⟨f, stage⟩ := h
  rcases stage with mail | _ | _
  · cases mail <;> rfl
  · rfl
  · rfl

/-- Asking again changes nothing. -/
theorem hasResult_idem (h : Handle) : h.hasResult.2.hasResult = h.hasResult := by
  have hsnd : h.hasResult.2 = h.look := by
    simp only [hasResult]
    split <;> rfl
  rw [hsnd]
  simp only [hasResult, look_look]

/-- A result is handed out once. -/
theorem take?_twice {h : Handle} {r : JobResult} (hr : h.take?.1 = some r) :
    h.take?.2.take? = (none, h.take?.2) := by
  simp only [take?] at hr ⊢
  split at hr
  · rfl
  · cases hr

end Handle

end AccelMonitor
